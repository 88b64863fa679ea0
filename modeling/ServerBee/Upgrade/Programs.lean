/-
What the programs of an upgrade may leave behind.

Of the files only four matter between calls: the installed binary, its backup, the staged candidate and the record
(`View`). For each program there is a rule of the program logic that names the views it can be killed in and the views it
can end in.
-/
import ServerBee.Upgrade.Model

namespace ServerBee.Upgrade

open ServerBee.Lib ServerBee.Lib.FileOp

structure View where
  currentExe : Option (File Content)
  bak : Option (File Content)
  candidate : Option (File Content)
  state : Option (File Content)

def Fs.view (fs : Fs) : View := ⟨fs .currentExe, fs .bak, fs .candidate, fs .state⟩

section Rules

variable {windows : Bool} {I : FsOp → Fs → Prop} {Q : Except UpgradeError Unit → Fs → Prop} {fs : Fs} {v : View}

/-- what a write of the record leaves -/
def View.recorded (v : View) (tx : UpgradeTransaction) : View := { v with state := some (.whole (.record tx)) }

theorem removeOnWindows_holds {f : FileName} (hI : windows = true → I (.remove f) (Function.update fs f none))
    (hQ : Q (.ok ()) (Function.update fs f none)) (hskip : Q (.ok ()) fs) :
    (removeOnWindows windows f).run.Holds exec I Q fs := by
  cases windows with
  | true => exact removeAny_holds (hI rfl) hQ
  | false => exact hskip

theorem writeState_holds {tx : UpgradeTransaction} (hv : fs.view = v)
    (hkeep : ∀ o fs', Fs.view fs' = v → I o fs')
    (hgap : windows = true → ∀ fs', Fs.view fs' = { v with state := none } → I (.remove .state) fs')
    (hI : ∀ o fs', Fs.view fs' = v.recorded tx → I o fs')
    (hQ : ∀ fs', Fs.view fs' = v.recorded tx → Q (.ok ()) fs') :
    (writeState windows tx).run.Holds exec I Q fs := by
  subst hv
  refine Prog.Holds.seq (removeAny_holds (hkeep _ _ rfl) ?_)
  refine Prog.Holds.seq (createWith_holds rfl (hkeep _ _ rfl) (hkeep _ _ rfl) ?_)
  refine Prog.Holds.seq (removeOnWindows_holds (fun hw => hgap hw _ rfl) ?_ ?_)
  all_goals exact renameFile_holds (fun _ => hI _ _ rfl) (fun _ => hQ _ rfl) fun hnone => nomatch hnone

theorem copyAndReplace_holds {c : File Content} (hv : fs.view = v) (hcurrent : v.currentExe = some c)
    (hkeep : ∀ o fs', Fs.view fs' = v → I o fs')
    (hgap : windows = true → ∀ fs', Fs.view fs' = { v with bak := none } → I (.remove .bak) fs')
    (hI : ∀ o fs', Fs.view fs' = { v with bak := some c } → I o fs')
    (hQ : ∀ fs', Fs.view fs' = { v with bak := some c } → Q (.ok ()) fs') :
    (copyAndReplace windows .currentExe .bak).run.Holds exec I Q fs := by
  subst hv
  refine Prog.Holds.seq (removeAny_holds (hkeep _ _ rfl) ?_)
  refine Prog.Holds.seq (copyFile_holds (show Function.update fs .bakTmp none .currentExe = some c from hcurrent) (hkeep _ _ rfl) (hkeep _ _ rfl) ?_)
  refine Prog.Holds.seq (removeOnWindows_holds (fun hw => hgap hw _ rfl) ?_ ?_)
  all_goals exact renameFile_holds (fun _ => hI _ _ rfl) (fun _ => hQ _ rfl) fun hnone => nomatch hnone

/-- a rollback puts the backup in place, or finds none and changes nothing -/
theorem rollbackFiles_holds {c : File Content} (hv : fs.view = v) (hcurrent : v.currentExe = some c)
    (hkeep : ∀ o fs', Fs.view fs' = v → I o fs')
    (hgap : ∀ fs', I (.rename .currentExe .failed) fs')
    (hI : ∀ o fs' b, v.bak = some b → Fs.view fs' = { v with currentExe := some b, bak := none } → I o fs')
    (hQ : ∀ fs' b, v.bak = some b → Fs.view fs' = { v with currentExe := some b, bak := none } → Q (.ok ()) fs')
    (hmissing : v.bak = none → Q (.error (.missing .bak)) fs) :
    rollbackFiles.run.Holds exec I Q fs := by
  subst hv
  refine Prog.Holds.seq ?_
  show Prog.Holds exec I Q (ExceptT.run (if (fs .bak).isNone = true then _ else _)) fs
  cases hb : fs .bak with
  | none => exact hmissing hb
  | some b =>
    refine Prog.Holds.seq (removeAny_holds (hkeep _ _ rfl) ?_)
    refine Prog.Holds.seq (renameFile_holds (fun _ => hgap _) (fun _ => ?_) fun hnone => ?_)
    · refine Prog.Holds.tryCatch (renameFile_holds (fun _ => hI _ _ b hb ?_) (fun _ => hQ _ b hb ?_) fun hnone => ?_)
      · exact hb ▸ rfl
      · exact hb ▸ rfl
      · cases hb.symm.trans hnone
    · cases hcurrent.symm.trans hnone

end Rules

/-! ## What a call leaves -/

def View.restored (v : View) (b : File Content) : View := { v with currentExe := some b, bak := none }

/-- the changes of phase that a process of a version makes -/
inductive PhaseStep (version : String) (tx : UpgradeTransaction) : TransactionPhase → Prop
  | interrupted (hother : normalizeVersion version ≠ normalizeVersion tx.targetVersion) : PhaseStep version tx .rolledBack
  | booting (hsame : normalizeVersion version = normalizeVersion tx.targetVersion) (hphase : tx.phase = .pending) :
      PhaseStep version tx .booting
  | healthy (hsame : normalizeVersion version = normalizeVersion tx.targetVersion) (hphase : tx.phase = .booting) :
      PhaseStep version tx .healthy

def onTrial (version : String) (tx : UpgradeTransaction) : Prop :=
  normalizeVersion version = normalizeVersion tx.targetVersion ∧ (tx.phase = .booting ∨ tx.phase = .healthy)

/-- the views that a call of the running process may leave -/
inductive Leaves (version : String) (v : View) : View → Prop
  | same : Leaves version v v
  | phase {tx : UpgradeTransaction} {phase : TransactionPhase} {error : Option String}
      (hstate : v.state = some (.whole (.record tx))) (hstep : PhaseStep version tx phase) :
      Leaves version v (v.recorded { tx with phase := phase, error := error })
  | restored {tx : UpgradeTransaction} {b : File Content} (hstate : v.state = some (.whole (.record tx)))
      (htrial : onTrial version tx) (hbak : v.bak = some b) : Leaves version v (v.restored b)
  | rolledBack {tx : UpgradeTransaction} {b : File Content} {error : Option String}
      (hstate : v.state = some (.whole (.record tx))) (htrial : onTrial version tx) (hbak : v.bak = some b) :
      Leaves version v ((v.restored b).recorded { tx with phase := .rolledBack, error := error })
  | reported {tx : UpgradeTransaction} (hstate : v.state = some (.whole (.record tx)))
      (hother : normalizeVersion version ≠ normalizeVersion tx.targetVersion) : Leaves version v { v with state := none }

/-- where a call that leaves `L` can be killed: between the two renames of a rollback, on Windows between the removal of
the old record and its replacement, and elsewhere in a view that it may leave -/
def Stops (windows : Bool) (L : View → Prop) (o : FsOp) (fs : Fs) : Prop :=
  o = .rename .currentExe .failed ∨ L fs.view ∨
    windows = true ∧ o = .remove .state ∧ ∃ v, L v ∧ fs.view = { v with state := none }

section Calls

variable {windows : Bool} {version : String} {fs : Fs} {c : File Content}

theorem readState_holds {I : FsOp → Fs → Prop} {Q : Except UpgradeError (Option UpgradeTransaction) → Fs → Prop}
    (hsome : ∀ tx, fs .state = some (.whole (.record tx)) → Q (.ok (some tx)) fs)
    (hother : (∀ tx, fs .state ≠ some (.whole (.record tx))) → Q (.ok none) fs ∧ Q (.error .invalidTransaction) fs) :
    readState.run.Holds exec I Q fs := by
  refine Prog.Holds.seq (FileOp.look_holds ?_)
  dsimp only
  split
  · rename_i hnone
    exact (hother fun tx h => Option.some_ne_none _ (h.symm.trans hnone)).1
  · exact hsome _ ‹_›
  · rename_i file hrecord hfile
    exact (hother fun tx h => hrecord tx (Option.some.inj (hfile.symm.trans h))).2

theorem stops_write {L : View → Prop} {Q : Except UpgradeError Unit → Fs → Prop} {v : View} {tx : UpgradeTransaction}
    (hv : fs.view = v) (hL : L v) (hL' : L (v.recorded tx))
    (hQ : ∀ fs', Fs.view fs' = v.recorded tx → Q (.ok ()) fs') :
    (writeState windows tx).run.Holds exec (Stops windows L) Q fs := by
  refine writeState_holds hv (fun o fs' h => ?_) (fun hw fs' h => ?_) (fun o fs' h => ?_) hQ
  · exact Or.inr (Or.inl (h ▸ hL))
  · exact Or.inr (Or.inr ⟨hw, rfl, v, hL, h⟩)
  · exact Or.inr (Or.inl (h ▸ hL'))

theorem stops_rollback {L : View → Prop} {Q : Except UpgradeError Unit → Fs → Prop} {v : View} (hv : fs.view = v)
    (hcurrent : v.currentExe = some c) (hL : L v) (hL' : ∀ b, v.bak = some b → L (v.restored b))
    (hQ : ∀ fs' b, v.bak = some b → Fs.view fs' = v.restored b → Q (.ok ()) fs')
    (hmissing : v.bak = none → Q (.error (.missing .bak)) fs) :
    rollbackFiles.run.Holds exec (Stops windows L) Q fs := by
  refine rollbackFiles_holds hv hcurrent (fun o fs' h => ?_) (fun fs' => Or.inl rfl) (fun o fs' b hb h => ?_) hQ hmissing
  · exact Or.inr (Or.inl (h ▸ hL))
  · have hview : Fs.view fs' = v.restored b := h
    exact Or.inr (Or.inl (hview ▸ hL' b hb))

/-- a rollback and the record of it: the backup is installed, if there is one -/
theorem rollback_record_holds {α : Type} {L : View → Prop} {tx : UpgradeTransaction} {a : α}
    (hcurrent : fs .currentExe = some c) (hsame : L fs.view) (hrestored : ∀ b, fs.view.bak = some b → L (fs.view.restored b))
    (hrecorded : ∀ b, fs.view.bak = some b → L ((fs.view.restored b).recorded tx)) :
    (do rollbackFiles; writeState windows tx; pure a : Io α).run.Holds exec (Stops windows L)
      (fun result fs' => L (Fs.view fs') ∧ (∀ a', result = .ok a' → a' = a) ∧
        ∀ b, fs.view.bak = some b → (Fs.view fs').currentExe = some b) fs := by
  refine Prog.Holds.seq (stops_rollback rfl hcurrent hsame hrestored (fun fs₁ b hb hfs₁ => ?_) fun hnone => ?_)
  · refine Prog.Holds.seq (stops_write hfs₁ (hrestored b hb) (hrecorded b hb) fun fs₂ hfs₂ => ?_)
    refine ⟨hfs₂ ▸ hrecorded b hb, fun a' h => (Except.ok.inj h).symm, fun b' hb' => ?_⟩
    rw [hfs₂]
    exact hb.symm.trans hb'
  · exact ⟨hsame, nofun, fun b hb => nomatch hnone.symm.trans hb⟩

/-- what a start decides from the record -/
structure Prepared (version : String) (v : View) (result : Except UpgradeError StartupDisposition) (v' : View) : Prop where
  leaves : Leaves version v v'
  goesOn : ∀ d, result = .ok d → d ≠ .restartAfterRollback → v'.currentExe = v.currentExe
  first : ∀ tx, v.state = some (.whole (.record tx)) → normalizeVersion version = normalizeVersion tx.targetVersion →
    tx.phase = .pending → v' = v.recorded { tx with phase := .booting }
  second : ∀ tx, v.state = some (.whole (.record tx)) → onTrial version tx → ∀ b, v.bak = some b → v'.currentExe = some b

theorem prepareStartupAt_holds (hcurrent : fs .currentExe = some c) :
    (prepareStartupAt windows version).run.Holds exec (Stops windows (Leaves version fs.view))
      (fun result fs' => Prepared version fs.view result (Fs.view fs')) fs := by
  refine Prog.Holds.seq (readState_holds (fun tx htx => ?_) fun hother => ?_)
  · have huniq : ∀ tx', fs.view.state = some (.whole (.record tx')) → tx' = tx := by
      intro tx' h
      have heq := htx.symm.trans h
      cases heq
      rfl
    show Prog.Holds exec _ _ (ExceptT.run (ite _ _ _)) fs
    by_cases hsame : normalizeVersion version = normalizeVersion tx.targetVersion
    · rw [if_neg (not_not.2 hsame)]
      have hrolled : tx.phase = .booting ∨ tx.phase = .healthy →
          (do rollbackFiles
              writeState windows { tx with phase := .rolledBack, error := some exitedEarly }
              pure StartupDisposition.restartAfterRollback : Io StartupDisposition).run.Holds exec
            (Stops windows (Leaves version fs.view)) (fun result fs' => Prepared version fs.view result (Fs.view fs')) fs := by
        intro hphase
        have htrial : onTrial version tx := ⟨hsame, hphase⟩
        refine (rollback_record_holds hcurrent .same (fun b hb => .restored htx htrial hb)
          fun b hb => .rolledBack htx htrial hb).mono fun result fs' h => ?_
        refine ⟨h.1, fun d hd hne => absurd (h.2.1 d hd) hne, fun tx' htx' _ hpending => ?_, fun _ _ _ => h.2.2⟩
        rw [huniq tx' htx'] at hpending
        rcases hphase with h | h <;> cases h.symm.trans hpending
      cases hphase : tx.phase with
      | pending =>
        have hstep : Leaves version fs.view (fs.view.recorded { tx with phase := .booting }) :=
          @Leaves.phase _ _ tx _ tx.error htx (.booting hsame hphase)
        refine Prog.Holds.seq (stops_write rfl .same hstep fun fs' hfs' => ?_)
        refine ⟨hfs' ▸ hstep, fun _ _ _ => hfs' ▸ rfl, fun tx' h _ _ => huniq tx' h ▸ hfs', ?_⟩
        intro tx' h htrial
        rw [huniq tx' h, onTrial, hphase] at htrial
        rcases htrial.2 with h | h <;> cases h
      | booting => exact hrolled (Or.inl hphase)
      | healthy => exact hrolled (Or.inr hphase)
      | rolledBack =>
        refine ⟨.same, nofun, fun tx' h _ hpending => ?_, fun tx' h htrial => ?_⟩
        · rw [huniq tx' h, hphase] at hpending
          cases hpending
        · rw [huniq tx' h, onTrial, hphase] at htrial
          rcases htrial.2 with h | h <;> cases h
    · rw [if_pos hsame]
      have hquiet : ∀ fs', Leaves version fs.view (Fs.view fs') → (Fs.view fs').currentExe = fs.view.currentExe →
          Prepared version fs.view (.ok .recovered) (Fs.view fs') := fun fs' hleaves hcurrent' =>
        ⟨hleaves, fun _ _ _ => hcurrent', fun tx' h hsame' => absurd (huniq tx' h ▸ hsame') hsame,
          fun tx' h htrial => absurd (huniq tx' h ▸ htrial.1) hsame⟩
      show Prog.Holds exec _ _ (ExceptT.run (ite _ _ _)) fs
      by_cases hphase : tx.phase = .rolledBack
      · rw [if_neg (not_not.2 hphase)]
        exact hquiet fs .same rfl
      · rw [if_pos hphase]
        have hstep : Leaves version fs.view (fs.view.recorded { tx with phase := .rolledBack, error := some interrupted }) :=
          .phase htx (.interrupted hsame)
        refine Prog.Holds.seq (stops_write rfl .same hstep fun fs' hfs' => ?_)
        exact hquiet fs' (hfs' ▸ hstep) (hfs' ▸ rfl)
  · have hnone : ∀ result, (∀ d, result = .ok d → d = .normal) → Prepared version fs.view result fs.view :=
      fun result h => ⟨.same, fun _ _ _ => rfl, fun tx h => absurd h (hother tx), fun tx h => absurd h (hother tx)⟩
    exact ⟨hnone _ fun d h => (Except.ok.inj h).symm, hnone _ nofun⟩

theorem commitStartupTrialAt_holds : (commitStartupTrialAt windows version).run.Holds exec
    (Stops windows (Leaves version fs.view))
    (fun _ fs' => Leaves version fs.view (Fs.view fs') ∧ (Fs.view fs').currentExe = fs.view.currentExe) fs := by
  refine Prog.Holds.seq (readState_holds (fun tx htx => ?_) fun _ => ⟨⟨.same, rfl⟩, .same, rfl⟩)
  show Prog.Holds exec _ _ (ExceptT.run (ite _ _ _)) fs
  by_cases hskip : tx.phase ≠ .booting ∨ normalizeVersion version ≠ normalizeVersion tx.targetVersion
  · rw [if_pos hskip]
    exact ⟨.same, rfl⟩
  · rw [if_neg hskip]
    rw [not_or, not_not, not_not] at hskip
    have hstep : Leaves version fs.view (fs.view.recorded { tx with phase := .healthy }) :=
      @Leaves.phase _ _ tx _ tx.error htx (.healthy hskip.2 hskip.1)
    refine Prog.Holds.seq (stops_write rfl .same hstep fun fs' hfs' => ?_)
    exact ⟨hfs' ▸ hstep, hfs' ▸ rfl⟩

/-- the record is removed -/
theorem removeState_holds {L : View → Prop} {Q : Except UpgradeError Unit → Fs → Prop}
    (hL : L { fs.view with state := none }) (hQ : ∀ fs', Fs.view fs' = { fs.view with state := none } → Q (.ok ()) fs') :
    removeState.run.Holds exec (Stops windows L) Q fs :=
  removeAny_holds (Or.inr (Or.inl hL)) (hQ _ rfl)

theorem finalizeStartupTrialAt_holds : (finalizeStartupTrialAt version).run.Holds exec
    (Stops windows (fun v => v = fs.view ∨ v = { fs.view with state := none }))
    (fun _ fs' => Fs.view fs' = fs.view ∨ Fs.view fs' = { fs.view with state := none }) fs := by
  refine Prog.Holds.seq (readState_holds (fun tx htx => ?_) fun _ => ⟨Or.inl rfl, Or.inl rfl⟩)
  show Prog.Holds exec _ _ (ExceptT.run (ite _ _ _)) fs
  by_cases hdone : tx.phase = .healthy ∧ normalizeVersion version = normalizeVersion tx.targetVersion
  · rw [if_pos hdone]
    exact removeState_holds (Or.inr rfl) fun fs' hfs' => Or.inr hfs'
  · rw [if_neg hdone]
    exact Or.inl rfl

theorem reportRecovery_holds : (reportRecovery version).run.Holds exec (Stops windows (Leaves version fs.view))
    (fun _ fs' => Leaves version fs.view (Fs.view fs') ∧ (Fs.view fs').currentExe = fs.view.currentExe) fs := by
  refine Prog.Holds.seq (Prog.Holds.seq (readState_holds (fun tx htx => ?_) fun _ => ⟨⟨.same, rfl⟩, .same, rfl⟩))
  show Prog.Holds exec _ _ (ExceptT.run (ite _ _ _)) fs
  by_cases hother : tx.phase ≠ .rolledBack ∨ normalizeVersion version = normalizeVersion tx.targetVersion
  · rw [if_pos hother]
    exact ⟨.same, rfl⟩
  · rw [if_neg hother]
    rw [not_or, not_not] at hother
    have hstep : Leaves version fs.view { fs.view with state := none } := .reported htx hother.2
    exact removeState_holds hstep fun fs' hfs' => ⟨hfs' ▸ hstep, hfs' ▸ rfl⟩

theorem rollbackUnhealthyTrialAt_holds (hcurrent : fs .currentExe = some c) :
    (rollbackUnhealthyTrialAt windows version).run.Holds exec (Stops windows (Leaves version fs.view))
      (fun result fs' => Leaves version fs.view (Fs.view fs') ∧
        (result = .ok false → (Fs.view fs').currentExe = fs.view.currentExe)) fs := by
  refine Prog.Holds.seq (readState_holds (fun tx htx => ?_) fun _ => ⟨⟨.same, fun _ => rfl⟩, .same, fun _ => rfl⟩)
  show Prog.Holds exec _ _ (ExceptT.run (ite _ _ _)) fs
  by_cases hskip : ¬ (tx.phase = .booting ∨ tx.phase = .healthy) ∨
      normalizeVersion version ≠ normalizeVersion tx.targetVersion
  · rw [if_pos hskip]
    exact ⟨.same, fun _ => rfl⟩
  · rw [if_neg hskip]
    rw [not_or, not_not, not_not] at hskip
    have htrial : onTrial version tx := ⟨hskip.2, hskip.1⟩
    refine (rollback_record_holds hcurrent .same (fun b hb => .restored htx htrial hb)
      fun b hb => .rolledBack htx htrial hb).mono fun result fs' h => ⟨h.1, fun hfalse => ?_⟩
    cases h.2.1 false hfalse

/-- the views that a rollback by an installer may leave -/
inductive Reverts (v : View) : View → Prop
  | same : Reverts v v
  | restored {b : File Content} (hbak : v.bak = some b) : Reverts v (v.restored b)
  | rolledBack {b : File Content} {tx : UpgradeTransaction} (hbak : v.bak = some b) (hphase : tx.phase = .rolledBack) :
      Reverts v ((v.restored b).recorded tx)

theorem rollbackFailedCandidateAt_holds {jobId : Option String} {error : String} (hcurrent : fs .currentExe = some c) :
    (rollbackFailedCandidateAt windows version jobId error).run.Holds exec (Stops windows (Reverts fs.view))
      (fun _ fs' => Reverts fs.view (Fs.view fs')) fs := by
  have hrollback : ∀ tx : UpgradeTransaction, tx.phase = .rolledBack →
      (do rollbackFiles; writeState windows tx : Io Unit).run.Holds exec (Stops windows (Reverts fs.view))
        (fun _ fs' => Reverts fs.view (Fs.view fs')) fs := by
    intro tx hphase
    refine Prog.Holds.seq (stops_rollback rfl hcurrent .same (fun b hb => .restored hb) (fun fs₁ b hb hfs₁ => ?_) fun _ => .same)
    exact stops_write hfs₁ (.restored hb) (.rolledBack hb hphase) fun fs₂ hfs₂ => hfs₂ ▸ .rolledBack hb hphase
  exact Prog.Holds.seq (readState_holds (fun tx _ => hrollback _ rfl) fun _ => ⟨hrollback _ rfl, .same⟩)

/-- the views that an installation may leave -/
inductive Installs (tx : UpgradeTransaction) (v : View) : View → Prop
  | same : Installs tx v v
  | recorded : Installs tx v (v.recorded tx)
  | cleared : Installs tx v { v.recorded tx with bak := none }
  | saved : Installs tx v { v.recorded tx with bak := v.currentExe }
  | placed : Installs tx v { v.recorded tx with bak := v.currentExe, currentExe := v.candidate, candidate := none }

def pendingFor (version : String) (jobId : Option String) : UpgradeTransaction :=
  ⟨normalizeVersion version, jobId, .pending, none⟩

theorem installCandidateAt_holds {jobId : Option String} {d : File Content} (hcurrent : fs .currentExe = some c)
    (hcandidate : fs .candidate = some d) :
    (installCandidateAt windows version jobId).run.Holds exec (Stops windows (Installs (pendingFor version jobId) fs.view))
      (fun result fs' => result = .ok () ∧ Fs.view fs' = { fs.view.recorded (pendingFor version jobId) with
        bak := fs.view.currentExe, currentExe := fs.view.candidate, candidate := none }) fs := by
  refine Prog.Holds.seq ?_
  show Prog.Holds exec _ _ (ExceptT.run (ite _ _ (ite _ _ _))) fs
  rw [hcurrent, hcandidate, if_neg (by simp), if_neg (by simp)]
  refine Prog.Holds.seq (stops_write rfl .same .recorded fun fs₁ hfs₁ => ?_)
  have hsaved : fs.view.currentExe = some c := hcurrent
  refine Prog.Holds.seq (Prog.Holds.tryCatch (copyAndReplace_holds hfs₁ (show (fs.view.recorded _).currentExe = _ from hsaved)
    (fun o fs' h => ?_) (fun _ fs' h => ?_) (fun o fs' h => ?_) fun fs₂ hfs₂ => ?_))
  · exact Or.inr (Or.inl (h ▸ .recorded))
  · exact Or.inr (Or.inl (h ▸ .cleared))
  · rw [← hsaved] at h
    exact Or.inr (Or.inl (h ▸ .saved))
  · rw [← hsaved] at hfs₂
    have hstaged : fs₂ .candidate = some d := (congrArg View.candidate hfs₂).trans hcandidate
    have hbak : fs₂ .bak = fs.view.currentExe := congrArg View.bak hfs₂
    have hstate : fs₂ .state = some (.whole (.record (pendingFor version jobId))) := congrArg View.state hfs₂
    have hplaced : Fs.view (exec (.rename .candidate .currentExe) fs₂) =
        { fs.view.recorded (pendingFor version jobId) with
          bak := fs.view.currentExe, currentExe := fs.view.candidate, candidate := none } := by
      show View.mk (fs₂ .candidate) (fs₂ .bak) none (fs₂ .state) = _
      rw [hstaged, hbak, hstate]
      exact congrArg (fun x => View.mk x fs.view.currentExe none _) hcandidate.symm
    refine Prog.Holds.tryCatch (renameFile_holds (fun _ => ?_) (fun _ => ⟨rfl, hplaced⟩) fun hnone => ?_)
    · exact Or.inr (Or.inl (hplaced ▸ .placed))
    · cases hstaged.symm.trans hnone

end Calls

end ServerBee.Upgrade
