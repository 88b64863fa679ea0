/-
An upgrade survives a crash at every step but one.

`Safe` says what the files may hold, `Probation` that a candidate that was not finalized has its backup and a record that
counts its starts. Each is kept by every view that a call may leave (`Leaves`, `Reverts`, `Installs`). A rollback renames
the installed binary away before it renames the backup into its place: a process killed in between leaves no binary.
-/
import Mathlib.Data.List.DropRight
import ServerBee.Upgrade.Programs

namespace ServerBee.Upgrade

open ServerBee.Lib ServerBee.Lib.FileOp

theorem normalizeVersion_idem (version : String) :
    normalizeVersion (normalizeVersion version) = normalizeVersion version := by
  simp only [normalizeVersion, String.toList_ofList, List.dropWhile_idempotent]

/-! ## Views -/

def installed (b : Binary) : Option (File Content) := some (.whole (.binary b))

theorem installed_inj {b b' : Binary} (h : installed b = installed b') : b = b' := by
  cases h
  rfl

theorem binary_some {fs : Fs} {f : FileName} {b : Binary} (h : Fs.binary fs f = some b) : fs f = installed b := by
  unfold Fs.binary at h
  split at h
  · cases h
    assumption
  · cases h

/-- the installed binary is the previous one or the candidate, and so is the backup -/
structure View.Safe (previous candidate : Binary) (v : View) : Prop where
  current : v.currentExe = installed previous ∨ v.currentExe = installed candidate
  bak : v.bak = none ∨ v.bak = installed previous ∨ v.bak = installed candidate

/-- a candidate that was not finalized is installed over the previous binary, and the record shows its starts -/
structure View.Probation (previous candidate : Binary) (starts : ℕ) (v : View) : Prop where
  bak : v.bak = none ∨ v.bak = installed previous
  trial : v.currentExe = installed candidate → v.bak = installed previous ∧
    ∃ tx, v.state = some (.whole (.record tx)) ∧ normalizeVersion candidate.version = normalizeVersion tx.targetVersion ∧
      (tx.phase = .pending ∧ starts = 0 ∨ (tx.phase = .booting ∨ tx.phase = .healthy) ∧ starts ≤ 1)

section Views

variable {previous candidate r : Binary} {starts : ℕ} {version : String} {v v' : View}

theorem View.Safe.stateless (h : v.Safe previous candidate) : ({ v with state := none } : View).Safe previous candidate :=
  ⟨h.current, h.bak⟩

theorem View.Safe.restored (h : v.Safe previous candidate) {b : File Content} (hbak : v.bak = some b) :
    (v.restored b).Safe previous candidate := by
  refine ⟨?_, Or.inl rfl⟩
  rcases h.bak with hnone | hold
  · cases hbak.symm.trans hnone
  · show some b = _ ∨ some b = _
    rw [← hbak]
    exact hold

theorem View.Safe.leaves (h : v.Safe previous candidate) (hleaves : Leaves version v v') : v'.Safe previous candidate := by
  cases hleaves with
  | same => exact h
  | phase hstate hstep => exact ⟨h.current, h.bak⟩
  | restored hstate htrial hbak => exact h.restored hbak
  | rolledBack hstate htrial hbak => exact ⟨(h.restored hbak).current, (h.restored hbak).bak⟩
  | reported hstate hother => exact h.stateless

theorem View.Safe.reverts (h : v.Safe previous candidate) (hreverts : Reverts v v') : v'.Safe previous candidate := by
  cases hreverts with
  | same => exact h
  | restored hbak => exact h.restored hbak
  | rolledBack hbak hphase => exact ⟨(h.restored hbak).current, (h.restored hbak).bak⟩

/-- an installation leaves the candidate staged over safe files, or puts it in place with a backup of the running binary -/
theorem View.Safe.installs (h : v.Safe previous candidate) {tx : UpgradeTransaction} {b : Binary}
    (hcurrent : v.currentExe = installed r) (hcandidate : v.candidate = installed b) (hinstalls : Installs tx v v') :
    v'.candidate = installed b ∧ v'.Safe previous candidate ∨ v'.candidate = none ∧ v'.Safe r b := by
  cases hinstalls with
  | same => exact Or.inl ⟨hcandidate, h⟩
  | recorded => exact Or.inl ⟨hcandidate, h.current, h.bak⟩
  | cleared => exact Or.inl ⟨hcandidate, h.current, Or.inl rfl⟩
  | saved => exact Or.inl ⟨hcandidate, h.current, Or.inr h.current⟩
  | placed => exact Or.inr ⟨rfl, Or.inr hcandidate, Or.inr (Or.inl hcurrent)⟩

variable (hversions : normalizeVersion previous.version ≠ normalizeVersion candidate.version)
include hversions

theorem previous_ne : installed previous ≠ installed candidate := fun h => hversions (installed_inj h ▸ rfl)

/-- a restored backup is the previous binary -/
theorem View.Probation.restored (h : v.Probation previous candidate starts) {b : File Content} (hbak : v.bak = some b) :
    (v.restored b).Probation previous candidate starts := by
  refine ⟨Or.inl rfl, fun hcurrent => ?_⟩
  have hb : some b = installed candidate := hcurrent
  rcases h.bak with hnone | hprevious
  · cases hbak.symm.trans hnone
  · exact absurd (hprevious.symm.trans (hbak.trans hb)) (previous_ne hversions)

theorem View.Probation.leaves (h : v.Probation previous candidate starts) (hcurrent : v.currentExe = installed r)
    (hleaves : Leaves r.version v v') : v'.Probation previous candidate starts := by
  -- a process of another version than the record's target is not the candidate
  have hother : ∀ tx, v.state = some (.whole (.record tx)) →
      normalizeVersion r.version ≠ normalizeVersion tx.targetVersion → v.currentExe ≠ installed candidate := by
    intro tx hstate hne hcandidate
    obtain ⟨-, tx', hstate', htarget, -⟩ := h.trial hcandidate
    cases hstate.symm.trans hstate'
    exact hne (installed_inj (hcurrent.symm.trans hcandidate) ▸ htarget)
  cases hleaves with
  | same => exact h
  | phase hstate hstep =>
    refine ⟨h.bak, fun hcandidate => ?_⟩
    obtain ⟨hbak, tx', hstate', htarget, hphase⟩ := h.trial hcandidate
    cases hstate.symm.trans hstate'
    refine ⟨hbak, _, rfl, htarget, ?_⟩
    cases hstep with
    | interrupted hne => exact absurd hcandidate (hother _ hstate hne)
    | booting hsame hpending =>
      rcases hphase with ⟨-, hstarts⟩ | ⟨h | h, -⟩
      · exact Or.inr ⟨Or.inl rfl, hstarts ▸ Nat.zero_le 1⟩
      · cases hpending.symm.trans h
      · cases hpending.symm.trans h
    | healthy hsame hbooting =>
      rcases hphase with ⟨h, -⟩ | ⟨-, hstarts⟩
      · cases hbooting.symm.trans h
      · exact Or.inr ⟨Or.inr rfl, hstarts⟩
  | restored hstate htrial hbak => exact h.restored hversions hbak
  | rolledBack hstate htrial hbak =>
    have hrestored := h.restored hversions hbak
    exact ⟨hrestored.bak, fun hcandidate => absurd (hrestored.trial hcandidate).1 nofun⟩
  | reported hstate hne => exact ⟨h.bak, fun hcandidate => absurd hcandidate (hother _ hstate hne)⟩

theorem View.Probation.reverts (h : v.Probation previous candidate starts) (hreverts : Reverts v v') :
    v'.Probation previous candidate starts := by
  cases hreverts with
  | same => exact h
  | restored hbak => exact h.restored hversions hbak
  | rolledBack hbak hphase =>
    have hrestored := h.restored hversions hbak
    exact ⟨hrestored.bak, fun hcandidate => absurd (hrestored.trial hcandidate).1 nofun⟩

/-- a start of the candidate to its end is its first, or brings the previous binary back -/
theorem View.Probation.start (h : v.Probation previous candidate starts) (hcurrent : v.currentExe = installed candidate)
    {result : Except UpgradeError StartupDisposition} (hprepared : Prepared candidate.version v result v') :
    v'.Probation previous candidate (starts + 1) := by
  obtain ⟨hbak, tx, hstate, htarget, hphase⟩ := h.trial hcurrent
  rcases hphase with ⟨hpending, hstarts⟩ | ⟨htrial, -⟩
  · rw [hprepared.first tx hstate htarget hpending, hstarts]
    exact ⟨h.bak, fun _ => ⟨hbak, _, rfl, htarget, Or.inr ⟨Or.inl rfl, le_rfl⟩⟩⟩
  · have hprevious : v'.currentExe = installed previous := hprepared.second tx hstate ⟨htarget, htrial⟩ _ hbak
    exact ⟨(h.leaves hversions hcurrent hprepared.leaves).bak, fun hcandidate =>
      absurd (hprevious.symm.trans hcandidate) (previous_ne hversions)⟩

omit hversions in
/-- an installation by the previous binary, or by a finalized one -/
theorem View.Probation.installs {tx : UpgradeTransaction} {b : Binary} (hcurrent : v.currentExe = installed r)
    (hcandidate : v.candidate = installed b) (htarget : normalizeVersion b.version = normalizeVersion tx.targetVersion)
    (hpending : tx.phase = .pending) (hinstalls : Installs tx v v') :
    v'.candidate = installed b ∧ (v.Probation previous candidate starts → v.currentExe = installed previous →
        installed previous ≠ installed candidate → v'.Probation previous candidate starts) ∨
      v'.candidate = none ∧ v'.Probation r b 0 := by
  have hquiet : ∀ v' : View, v'.currentExe = v.currentExe → (v'.bak = none ∨ v'.bak = installed previous) →
      v.currentExe = installed previous → installed previous ≠ installed candidate →
      v'.Probation previous candidate starts := fun v' hsame hbak hprevious hne =>
    ⟨hbak, fun hcandidate => absurd (hprevious.symm.trans (hsame.symm.trans hcandidate)) hne⟩
  cases hinstalls with
  | same => exact Or.inl ⟨hcandidate, fun h _ _ => h⟩
  | recorded => exact Or.inl ⟨hcandidate, fun h => hquiet _ rfl h.bak⟩
  | cleared => exact Or.inl ⟨hcandidate, fun _ => hquiet _ rfl (Or.inl rfl)⟩
  | saved => exact Or.inl ⟨hcandidate, fun _ hprevious => hquiet _ rfl (Or.inr hprevious) hprevious⟩
  | placed => exact Or.inr ⟨rfl, Or.inr hcurrent, fun _ => ⟨hcurrent, tx, rfl, htarget, Or.inl ⟨hpending, rfl⟩⟩⟩

end Views

/-! ## Steps -/

def cut : FsOp := .rename .currentExe .failed

structure Safe (s : St) : Prop where
  view : s.fs.view.Safe s.previous s.candidate
  running : ∀ r, s.running = some r → s.fs .currentExe = installed r

structure Probation (s : St) : Prop where
  versions : s.finalized = false → normalizeVersion s.previous.version ≠ normalizeVersion s.candidate.version
  view : s.finalized = false → s.fs.view.Probation s.previous s.candidate s.starts

section Steps

variable {windows : Bool} {s : St}

theorem Safe.currentExe (h : Safe s) : ∃ c, s.fs .currentExe = some c := by
  rcases h.view.current with hc | hc
  · exact ⟨_, hc⟩
  · exact ⟨_, hc⟩

theorem finished_cases {α : Type} {e : Prog.End FsOp (Except UpgradeError α)} (h : finished e = true) :
    ∃ result, e = .finished result := by
  cases e with
  | finished result => exact ⟨result, rfl⟩
  | killed last => cases h

theorem keeps_cases {α : Type} {p : α → Bool} {e : Prog.End FsOp (Except UpgradeError α)} (h : keeps p e = true) :
    ∃ a, e = .finished (.ok a) ∧ p a = true := by
  cases e with
  | killed last => cases h
  | finished result =>
    cases result with
    | error e => cases h
    | ok a => exact ⟨a, rfl, h⟩

/-- a call that is not killed between the renames finishes, or is killed in a view it may leave -/
theorem call_cases {α : Type} {program : Io α} {n : ℕ} {L : View → Prop} {Q : Except UpgradeError α → Fs → Prop}
    (h : program.run.Holds exec (Stops windows L) Q s.fs) (hsame : L s.fs.view)
    (hcut : killPoint (s.call program n).2 ≠ some cut) :
    (∃ result, (s.call program n).2 = .finished result ∧ Q result (s.call program n).1) ∨
      (∃ last, (s.call program n).2 = .killed last ∧
        (L (Fs.view (s.call program n).1) ∨ windows = true ∧ last = some (.remove .state) ∧
          ∃ v, L v ∧ Fs.view (s.call program n).1 = { v with state := none })) := by
  have hrun := h.run n none
  unfold St.call at hcut ⊢
  generalize program.run.run exec n none s.fs = r at hrun hcut ⊢
  obtain ⟨fs', e⟩ := r
  cases e with
  | finished result => exact Or.inl ⟨result, rfl, hrun⟩
  | killed last =>
    refine Or.inr ⟨last, rfl, ?_⟩
    rcases hrun with ⟨rfl, -⟩ | ⟨o, rfl, hstop⟩
    · exact Or.inl hsame
    · rcases hstop with rfl | hL | ⟨hw, rfl, hgap⟩
      · exact absurd rfl hcut
      · exact Or.inl hL
      · exact Or.inr ⟨hw, rfl, hgap⟩

/-- so its view is safe -/
theorem call_safe {α : Type} {program : Io α} {n : ℕ} {L : View → Prop} {Q : Except UpgradeError α → Fs → Prop}
    {previous candidate : Binary} (h : program.run.Holds exec (Stops windows L) Q s.fs) (hsame : L s.fs.view)
    (hcut : killPoint (s.call program n).2 ≠ some cut) (hL : ∀ v, L v → v.Safe previous candidate)
    (hQ : ∀ result fs', Q result fs' → (Fs.view fs').Safe previous candidate) :
    (Fs.view (s.call program n).1).Safe previous candidate := by
  rcases call_cases h hsame hcut with ⟨result, -, hq⟩ | ⟨last, -, hl | ⟨-, -, v, hv, hview⟩⟩
  · exact hQ result _ hq
  · exact hL _ hl
  · exact hview ▸ (hL v hv).stateless

theorem after_safe {α : Type} {program : Io α} {n : ℕ} {r : Binary}
    {goes : Prog.End FsOp (Except UpgradeError α) → Bool} {L : View → Prop} {Q : Except UpgradeError α → Fs → Prop}
    (hprogram : program.run.Holds exec (Stops windows L) Q s.fs) (hsame : L s.fs.view)
    (hcut : killPoint (s.call program n).2 ≠ some cut) (hL : ∀ v, L v → v.Safe s.previous s.candidate)
    (hQ : ∀ result fs', Q result fs' → (Fs.view fs').Safe s.previous s.candidate)
    (hgoes : ∀ e, goes e = true → ∃ result, e = .finished result ∧ ∀ fs', Q result fs' → fs' .currentExe = installed r) :
    Safe (s.after r goes (s.call program n)) := by
  refine ⟨call_safe hprogram hsame hcut hL hQ, fun r' hr' => ?_⟩
  change (if goes (s.call program n).2 = true then some r else none) = some r' at hr'
  split_ifs at hr' with hg
  cases hr'
  obtain ⟨result, he, hcurrent⟩ := hgoes _ hg
  rcases call_cases hprogram hsame hcut with ⟨result', he', hq⟩ | ⟨last, he', -⟩
  · cases he.symm.trans he'
    exact hcurrent _ hq
  · cases he.symm.trans he'

theorem installable_some {targetVersion : String} {r b : Binary} (h : s.installable targetVersion = some (r, b)) :
    s.running = some r ∧ s.fs .candidate = installed b ∧ normalizeVersion b.version = normalizeVersion targetVersion ∧
      normalizeVersion targetVersion ≠ normalizeVersion r.version := by
  unfold St.installable at h
  split at h
  · rename_i hrunning hbinary
    split_ifs at h with hversions
    cases h
    exact ⟨hrunning, binary_some hbinary, hversions⟩
  · cases h

@[simp] theorem place_running (r b : Binary) : (s.place r b).running = s.running := by
  unfold St.place
  split_ifs <;> rfl

@[simp] theorem place_killedAfter (r b : Binary) : (s.place r b).killedAfter = s.killedAfter := by
  unfold St.place
  split_ifs <;> rfl

theorem place_staged {r b b' : Binary} (h : s.fs .candidate = installed b') : s.place r b = s :=
  if_neg (by rw [h]; exact nofun)

theorem place_placed {r b : Binary} (h : s.fs .candidate = none) :
    s.place r b = { s with previous := r, candidate := b, starts := 0, finalized := false } :=
  if_pos (by rw [h]; rfl)

/-- the process of an installation that was called ended, or watches its candidate -/
theorem installed_running {r b : Binary} {targetVersion : String} {jobId : Option String} {n : ℕ} {c d : File Content}
    (hcurrent : s.fs .currentExe = some c) (hcandidate : s.fs .candidate = some d)
    (hcut : killPoint (s.call (installCandidateAt windows targetVersion jobId) n).2 ≠ some cut) :
    (((s.after r fails (s.call (installCandidateAt windows targetVersion jobId) n)).enlist (targetVersion, jobId)
      (s.call (installCandidateAt windows targetVersion jobId) n).2).place r b).running = none := by
  rw [place_running]
  show (if fails _ = true then some r else none) = none
  rcases call_cases (installCandidateAt_holds hcurrent hcandidate) .same hcut with ⟨result, he, hq, -⟩ | ⟨last, he, -⟩
  · rw [he, hq]
    rfl
  · rw [he]
    rfl

/-- an installation leaves one of its views, or on Windows one without the record -/
theorem installed_view {targetVersion : String} {jobId : Option String} {n : ℕ} {c d : File Content}
    (hcurrent : s.fs .currentExe = some c) (hcandidate : s.fs .candidate = some d)
    (hcut : killPoint (s.call (installCandidateAt windows targetVersion jobId) n).2 ≠ some cut) :
    ∃ v, Installs (pendingFor targetVersion jobId) s.fs.view v ∧
      (Fs.view (s.call (installCandidateAt windows targetVersion jobId) n).1 = v ∨
        windows = true ∧ killPoint (s.call (installCandidateAt windows targetVersion jobId) n).2 = some (.remove .state) ∧
          Fs.view (s.call (installCandidateAt windows targetVersion jobId) n).1 = { v with state := none }) := by
  rcases call_cases (installCandidateAt_holds hcurrent hcandidate) .same hcut with
    ⟨result, -, -, hview⟩ | ⟨last, he, hl | ⟨hw, hlast, v, hv, hview⟩⟩
  · exact ⟨_, .placed, Or.inl hview⟩
  · exact ⟨_, hl, Or.inl rfl⟩
  · rw [he]
    exact ⟨v, hv, Or.inr ⟨hw, hlast, hview⟩⟩

theorem Safe.install (h : Safe s) {targetVersion : String} {jobId : Option String} {n : ℕ}
    (hcut : (step windows s (.install targetVersion jobId n)).killedAfter ≠ some cut) :
    Safe (step windows s (.install targetVersion jobId n)) := by
  simp only [step] at hcut ⊢
  split at hcut
  · exact ⟨h.view, h.running⟩
  · rename_i r b hinstallable
    obtain ⟨hr, hstaged, -⟩ := installable_some hinstallable
    have hcurrent := h.running r hr
    rw [place_killedAfter] at hcut
    refine ⟨?_, fun r' hr' => ?_⟩
    · obtain ⟨v, hinstalls, hview⟩ := installed_view hcurrent hstaged hcut
      have hstaged' : v.candidate = (s.call (installCandidateAt windows targetVersion jobId) n).1 .candidate := by
        rcases hview with hview | ⟨-, -, hview⟩
        · exact (congrArg View.candidate hview).symm
        · exact (congrArg View.candidate hview).symm
      have hsafe : ∀ previous candidate, v.Safe previous candidate →
          (Fs.view (s.call (installCandidateAt windows targetVersion jobId) n).1).Safe previous candidate := by
        intro previous candidate hv
        rcases hview with hview | ⟨-, -, hview⟩
        · exact hview ▸ hv
        · exact hview ▸ hv.stateless
      rcases h.view.installs hcurrent hstaged hinstalls with ⟨hcandidate, hv⟩ | ⟨hcandidate, hv⟩
      · rw [place_staged (hstaged'.symm.trans hcandidate)]
        exact hsafe _ _ hv
      · rw [place_placed (hstaged'.symm.trans hcandidate)]
        exact hsafe _ _ hv
    · rw [installed_running hcurrent hstaged hcut] at hr'
      cases hr'

theorem step_safe (h : Safe s) (op : Op) (hcut : (step windows s op).killedAfter ≠ some cut) : Safe (step windows s op) := by
  cases op with
  | start n =>
    simp only [step] at hcut ⊢
    split at hcut
    · exact ⟨h.view, h.running⟩
    · rename_i b hb
      have hcurrent := binary_some hb
      have hafter : Safe (s.after b (keeps (· != .restartAfterRollback)) (s.call (prepareStartupAt windows b.version) n)) := by
        refine after_safe (prepareStartupAt_holds hcurrent) .same hcut (fun v hv => h.view.leaves hv)
          (fun _ _ hp => h.view.leaves hp.leaves) fun e he => ?_
        obtain ⟨d, rfl, hd⟩ := keeps_cases he
        exact ⟨_, rfl, fun fs' hp => (hp.goesOn d rfl (by simpa using hd)).trans hcurrent⟩
      exact ⟨hafter.view, hafter.running⟩
  | stop => exact ⟨h.view, nofun⟩
  | stage file =>
    simp only [step]
    split
    · exact ⟨h.view, h.running⟩
    · exact ⟨⟨h.view.current, h.view.bak⟩, h.running⟩
  | install targetVersion jobId n => exact h.install hcut
  | commit n =>
    simp only [step] at hcut ⊢
    split at hcut
    · exact ⟨h.view, h.running⟩
    · rename_i r hr
      refine after_safe commitStartupTrialAt_holds .same hcut (fun v hv => h.view.leaves hv) (fun _ _ hp => h.view.leaves hp.1) ?_
      intro e he
      obtain ⟨result, rfl⟩ := finished_cases he
      exact ⟨result, rfl, fun fs' hp => hp.2.trans (h.running r hr)⟩
  | finalize n =>
    simp only [step] at hcut ⊢
    split at hcut
    · exact ⟨h.view, h.running⟩
    · rename_i r hr
      have hleft : ∀ v, v = s.fs.view ∨ v = { s.fs.view with state := none } → v.Safe s.previous s.candidate := by
        rintro v (rfl | rfl)
        · exact h.view
        · exact h.view.stateless
      have hafter : Safe (s.after r finished (s.call (finalizeStartupTrialAt r.version) n)) := by
        refine after_safe (@finalizeStartupTrialAt_holds windows _ _) (Or.inl rfl) hcut hleft (fun _ fs' hp => hleft _ hp)
          fun e he => ?_
        obtain ⟨result, rfl⟩ := finished_cases he
        refine ⟨result, rfl, fun fs' hp => ?_⟩
        rcases hp with hp | hp
        · exact (congrArg View.currentExe hp).trans (h.running r hr)
        · exact (congrArg View.currentExe hp).trans (h.running r hr)
      exact ⟨hafter.view, hafter.running⟩
  | watchdog n =>
    simp only [step] at hcut ⊢
    split at hcut
    · exact ⟨h.view, h.running⟩
    · rename_i r hr
      refine after_safe (rollbackUnhealthyTrialAt_holds (h.running r hr)) .same hcut (fun v hv => h.view.leaves hv)
        (fun _ _ hp => h.view.leaves hp.1) ?_
      intro e he
      obtain ⟨d, rfl, hd⟩ := keeps_cases he
      refine ⟨_, rfl, fun fs' hp => (hp.2 ?_).trans (h.running r hr)⟩
      cases d with
      | false => rfl
      | true => cases hd
  | rollbackFailed targetVersion jobId error n =>
    simp only [step] at hcut ⊢
    split_ifs at hcut ⊢
    · obtain ⟨c, hc⟩ := h.currentExe
      exact ⟨call_safe (rollbackFailedCandidateAt_holds hc) .same hcut (fun v hv => h.view.reverts hv)
        fun _ _ hp => h.view.reverts hp, nofun⟩
    · exact ⟨h.view, h.running⟩
  | report n =>
    simp only [step] at hcut ⊢
    split at hcut
    · exact ⟨h.view, h.running⟩
    · rename_i r hr
      refine after_safe (@reportRecovery_holds windows _ _) .same hcut (fun v hv => h.view.leaves hv) (fun _ _ hp => h.view.leaves hp.1) ?_
      intro e he
      obtain ⟨result, rfl⟩ := finished_cases he
      exact ⟨result, rfl, fun fs' hp => hp.2.trans (h.running r hr)⟩

def Op.isInstall : Op → Bool
  | .install .. => true
  | _ => false

/-- what is asked of a step beyond the cut: on Windows no kill between the removal of a record and its replacement, and no
installation while a trial is active -/
def Orderly (windows : Bool) (s : St) (op : Op) : Prop :=
  (windows = true → (step windows s op).killedAfter ≠ some (.remove .state)) ∧
    (op.isInstall = true → trialIsActiveAt s.fs = false)

/-- the view of a call, for what holds of every view it may leave -/
theorem call_view {α : Type} {program : Io α} {n : ℕ} {L P : View → Prop} {Q : Except UpgradeError α → Fs → Prop}
    (h : program.run.Holds exec (Stops windows L) Q s.fs) (hsame : L s.fs.view)
    (hcut : killPoint (s.call program n).2 ≠ some cut)
    (hgap : windows = true → killPoint (s.call program n).2 ≠ some (.remove .state)) (hL : ∀ v, L v → P v)
    (hQ : ∀ result fs', Q result fs' → P (Fs.view fs')) : P (Fs.view (s.call program n).1) := by
  rcases call_cases h hsame hcut with ⟨result, -, hq⟩ | ⟨last, he, hl | ⟨hw, rfl, -⟩⟩
  · exact hQ result _ hq
  · exact hL _ hl
  · exact absurd (congrArg killPoint he) (hgap hw)

theorem Probation.keep {s' : St} (hp : Probation s) (hprevious : s'.previous = s.previous)
    (hcandidate : s'.candidate = s.candidate) (hfinalized : s'.finalized = false → s.finalized = false)
    (hview : s.finalized = false → s'.finalized = false → s'.fs.view.Probation s.previous s.candidate s'.starts) :
    Probation s' := by
  refine ⟨fun h => ?_, fun h => ?_⟩
  · rw [hprevious, hcandidate]
    exact hp.versions (hfinalized h)
  · rw [hprevious, hcandidate]
    exact hview (hfinalized h) h

theorem Probation.install (h : Safe s) (hp : Probation s) {targetVersion : String} {jobId : Option String} {n : ℕ}
    (hcut : (step windows s (.install targetVersion jobId n)).killedAfter ≠ some cut)
    (horderly : Orderly windows s (.install targetVersion jobId n)) :
    Probation (step windows s (.install targetVersion jobId n)) := by
  obtain ⟨hgap, hinactive⟩ := horderly
  have hinactive := hinactive rfl
  simp only [step] at hcut hgap ⊢
  split at hcut
  · exact ⟨hp.versions, hp.view⟩
  · rename_i r b hinstallable
    obtain ⟨hr, hstaged, hverified, hother⟩ := installable_some hinstallable
    have hcurrent := h.running r hr
    simp only [hinstallable, place_killedAfter] at hcut hgap
    obtain ⟨v, hinstalls, hview⟩ := installed_view hcurrent hstaged hcut
    have hview : Fs.view (s.call (installCandidateAt windows targetVersion jobId) n).1 = v := by
      rcases hview with hview | ⟨hw, hkill, -⟩
      · exact hview
      · exact absurd hkill (hgap hw)
    have hleft : (s.call (installCandidateAt windows targetVersion jobId) n).1 .candidate = v.candidate :=
      congrArg View.candidate hview
    have htarget : normalizeVersion b.version = normalizeVersion (pendingFor targetVersion jobId).targetVersion :=
      hverified.trans (normalizeVersion_idem targetVersion).symm
    rcases @View.Probation.installs s.previous s.candidate r s.starts s.fs.view v (pendingFor targetVersion jobId) b hcurrent
      hstaged htarget rfl hinstalls with ⟨hcandidate, hkeep⟩ | ⟨hcandidate, hnew⟩
    · rw [place_staged (hleft.trans hcandidate)]
      refine hp.keep rfl rfl id fun hfinalized _ => ?_
      have hprobation := hp.view hfinalized
      -- the installed binary is the previous one, as a candidate that is not finalized has an active trial
      have hprevious : s.fs .currentExe = installed s.previous := by
        rcases h.view.current with hcur | hcur
        · exact hcur
        · obtain ⟨-, tx, hstate, -, hphase⟩ := hprobation.trial hcur
          have hstate' : s.fs .state = some (.whole (.record tx)) := hstate
          rw [trialIsActiveAt, hstate'] at hinactive
          rcases hphase with ⟨hphase, -⟩ | ⟨hphase | hphase, -⟩ <;> simp [hphase] at hinactive
      exact hview ▸ hkeep hprobation hprevious (previous_ne (hp.versions hfinalized))
    · rw [place_placed (hleft.trans hcandidate)]
      have hversions : normalizeVersion r.version ≠ normalizeVersion b.version :=
        fun hsame => hother (hverified.symm.trans hsame.symm)
      have hnew' : (Fs.view (s.call (installCandidateAt windows targetVersion jobId) n).1).Probation r b 0 := hview ▸ hnew
      exact ⟨fun _ => hversions, fun _ => hnew'⟩

theorem step_probation (h : Safe s) (hp : Probation s) (op : Op) (hcut : (step windows s op).killedAfter ≠ some cut)
    (horderly : Orderly windows s op) : Probation (step windows s op) := by
  cases op with
  | install targetVersion jobId n => exact hp.install h hcut horderly
  | start n =>
    obtain ⟨hgap, -⟩ := horderly
    simp only [step] at hcut hgap ⊢
    split at hcut
    · exact ⟨hp.versions, hp.view⟩
    · rename_i b hb
      have hcurrent := binary_some hb
      simp only [hb] at hgap
      refine hp.keep rfl rfl id fun hfinalized _ => ?_
      have hversions := hp.versions hfinalized
      have hprobation := hp.view hfinalized
      have hprogram := @prepareStartupAt_holds windows b.version s.fs _ hcurrent
      show View.Probation s.previous s.candidate
        (if (finished (s.call (prepareStartupAt windows b.version) n).2 && b == s.candidate) = true then s.starts + 1
          else s.starts) (Fs.view (s.call (prepareStartupAt windows b.version) n).1)
      rcases call_cases (n := n) hprogram .same hcut with ⟨result, he, hq⟩ | ⟨last, he, hl | ⟨hw, hlast, -⟩⟩
      · have hstarts : finished (s.call (prepareStartupAt windows b.version) n).2 = true := by rw [he]; rfl
        by_cases hcandidate : b = s.candidate
        · subst hcandidate
          have hview := hprobation.start hversions hcurrent hq
          rw [hstarts]
          simpa using hview
        · have hview := hprobation.leaves hversions hcurrent hq.leaves
          rw [hstarts]
          simpa [hcandidate] using hview
      · have hview := hprobation.leaves hversions hcurrent hl
        have hstarts : finished (s.call (prepareStartupAt windows b.version) n).2 = false := by rw [he]; rfl
        rw [hstarts]
        simpa using hview
      · exact absurd ((congrArg killPoint he).trans hlast) (hgap hw)
  | stop => exact ⟨hp.versions, hp.view⟩
  | stage file =>
    simp only [step]
    split
    · exact ⟨hp.versions, hp.view⟩
    · exact hp.keep rfl rfl id fun hfinalized _ => ⟨(hp.view hfinalized).bak, (hp.view hfinalized).trial⟩
  | commit n =>
    obtain ⟨hgap, -⟩ := horderly
    simp only [step] at hcut hgap ⊢
    split at hcut
    · exact ⟨hp.versions, hp.view⟩
    · rename_i r hr
      simp only [hr] at hgap
      exact hp.keep rfl rfl id fun hfinalized _ => call_view commitStartupTrialAt_holds .same hcut hgap
        (fun v hv => (hp.view hfinalized).leaves (hp.versions hfinalized) (h.running r hr) hv)
        fun _ _ hq => (hp.view hfinalized).leaves (hp.versions hfinalized) (h.running r hr) hq.1
  | finalize n =>
    obtain ⟨hgap, -⟩ := horderly
    simp only [step] at hcut hgap ⊢
    split at hcut
    · exact ⟨hp.versions, hp.view⟩
    · rename_i r hr
      simp only [hr] at hgap
      refine hp.keep rfl rfl (fun hfinalized => ?_) fun hfinalized hfinalized' => ?_
      · exact (Bool.or_eq_false_iff.1 hfinalized).1
      · have hprobation := hp.view hfinalized
        have hkept : ((s.fs .state).isSome && ((s.call (finalizeStartupTrialAt r.version) n).1 .state).isNone &&
            r == s.candidate) = false := (Bool.or_eq_false_iff.1 hfinalized').2
        have hview : ∀ v, v = s.fs.view ∨ v = { s.fs.view with state := none } →
            Fs.view (s.call (finalizeStartupTrialAt r.version) n).1 = v → v.Probation s.previous s.candidate s.starts := by
          rintro v (rfl | rfl) hview
          · exact hprobation
          · -- the record is gone: the finalizing process is not the candidate
            refine ⟨hprobation.bak, fun hcandidate => ?_⟩
            obtain ⟨-, tx, hstate, -⟩ := hprobation.trial hcandidate
            have hr' : r = s.candidate := installed_inj ((h.running r hr).symm.trans hcandidate)
            have hstate' : s.fs .state = some (.whole (.record tx)) := hstate
            have hgone : (s.call (finalizeStartupTrialAt r.version) n).1 .state = none := congrArg View.state hview
            rw [hstate', hgone, hr', beq_self_eq_true] at hkept
            cases hkept
        rcases call_cases (n := n) (@finalizeStartupTrialAt_holds windows r.version s.fs) (Or.inl rfl) hcut with
          ⟨result, -, hq⟩ | ⟨last, he, hl | ⟨hw, hlast, -⟩⟩
        · exact hview _ hq rfl
        · exact hview _ hl rfl
        · exact absurd ((congrArg killPoint he).trans hlast) (hgap hw)
  | watchdog n =>
    obtain ⟨hgap, -⟩ := horderly
    simp only [step] at hcut hgap ⊢
    split at hcut
    · exact ⟨hp.versions, hp.view⟩
    · rename_i r hr
      simp only [hr] at hgap
      exact hp.keep rfl rfl id fun hfinalized _ => call_view (rollbackUnhealthyTrialAt_holds (h.running r hr)) .same hcut hgap
        (fun v hv => (hp.view hfinalized).leaves (hp.versions hfinalized) (h.running r hr) hv)
        fun _ _ hq => (hp.view hfinalized).leaves (hp.versions hfinalized) (h.running r hr) hq.1
  | rollbackFailed targetVersion jobId error n =>
    obtain ⟨hgap, -⟩ := horderly
    obtain ⟨c, hc⟩ := h.currentExe
    simp only [step] at hcut hgap ⊢
    split_ifs at hcut ⊢ with hmem
    · rw [if_pos hmem] at hgap
      exact hp.keep rfl rfl id fun hfinalized _ => call_view (rollbackFailedCandidateAt_holds hc) .same hcut hgap
        (fun v hv => (hp.view hfinalized).reverts (hp.versions hfinalized) hv)
        fun _ _ hq => (hp.view hfinalized).reverts (hp.versions hfinalized) hq
    · exact ⟨hp.versions, hp.view⟩
  | report n =>
    obtain ⟨hgap, -⟩ := horderly
    simp only [step] at hcut hgap ⊢
    split at hcut
    · exact ⟨hp.versions, hp.view⟩
    · rename_i r hr
      simp only [hr] at hgap
      exact hp.keep rfl rfl id fun hfinalized _ => call_view (@reportRecovery_holds windows _ _) .same hcut hgap
        (fun v hv => (hp.view hfinalized).leaves (hp.versions hfinalized) (h.running r hr) hv)
        fun _ _ hq => (hp.view hfinalized).leaves (hp.versions hfinalized) (h.running r hr) hq.1

end Steps

/-! ## Runs -/

/-- no call of the run is killed between the two renames of `rollback_files` -/
def Uncut (windows : Bool) (s : St) : List Op → Prop
  | [] => True
  | op :: ops => (step windows s op).killedAfter ≠ some cut ∧ Uncut windows (step windows s op) ops

def AllOrderly (windows : Bool) (s : St) : List Op → Prop
  | [] => True
  | op :: ops => Orderly windows s op ∧ AllOrderly windows (step windows s op) ops

instance Orderly.decidable (windows : Bool) (s : St) (op : Op) : Decidable (Orderly windows s op) := by
  unfold Orderly
  infer_instance

instance Uncut.decidable (windows : Bool) : ∀ (s : St) (ops : List Op), Decidable (Uncut windows s ops)
  | _, [] => isTrue trivial
  | s, op :: ops => @instDecidableAnd _ _ _ (Uncut.decidable windows (step windows s op) ops)

instance AllOrderly.decidable (windows : Bool) : ∀ (s : St) (ops : List Op), Decidable (AllOrderly windows s ops)
  | _, [] => isTrue trivial
  | s, op :: ops => @instDecidableAnd _ _ _ (AllOrderly.decidable windows (step windows s op) ops)

theorem run_safe {windows : Bool} (ops : List Op) {s : St} (h : Safe s) (hcut : Uncut windows s ops) :
    Safe (run windows s ops) := by
  induction ops generalizing s with
  | nil => exact h
  | cons op ops ih => exact ih (step_safe h op hcut.1) hcut.2

theorem run_probation {windows : Bool} (ops : List Op) {s : St} (h : Safe s) (hp : Probation s) (hcut : Uncut windows s ops)
    (horderly : AllOrderly windows s ops) : Probation (run windows s ops) := by
  induction ops generalizing s with
  | nil => exact hp
  | cons op ops ih =>
    exact ih (step_safe h op hcut.1) (step_probation h hp op hcut.1 horderly.1) hcut.2 horderly.2

theorem safe_init (b : Binary) : Safe (.init b) := ⟨⟨Or.inl rfl, Or.inl rfl⟩, nofun⟩

theorem probation_init (b : Binary) : Probation (.init b) := ⟨nofun, nofun⟩

/-- **An upgrade survives a crash outside the rollback's renames.** In every run from a good installed binary in which no
call is killed between the two renames of `rollback_files`: the installed binary is the complete previous one or the
complete candidate. If besides no installation starts while a trial is active and, on Windows, no call is killed between
the removal of a record and its replacement, a candidate that was started twice and not finalized is replaced by the
previous binary. -/
theorem upgrade_survives (windows : Bool) (b : Binary) (ops : List Op) (hcut : Uncut windows (.init b) ops) :
    let s := run windows (.init b) ops
    (s.fs .currentExe = installed s.previous ∨ s.fs .currentExe = installed s.candidate) ∧
      (AllOrderly windows (.init b) ops → s.finalized = false → 2 ≤ s.starts → s.fs .currentExe = installed s.previous) := by
  intro s
  have hsafe : Safe s := run_safe ops (safe_init b) hcut
  refine ⟨hsafe.view.current, fun horderly hfinalized hstarts => ?_⟩
  have hprobation : Probation s := run_probation ops (safe_init b) (probation_init b) hcut horderly
  rcases hsafe.view.current with hcurrent | hcurrent
  · exact hcurrent
  · obtain ⟨-, tx, -, -, ⟨-, hzero⟩ | ⟨-, hone⟩⟩ := (hprobation.view hfinalized).trial hcurrent
    · omega
    · omega

def oldAgent : Binary := ⟨"1.0.0", 1⟩

def newAgent : Binary := ⟨"2.0.0", 2⟩

def upgradeRun : List Op :=
  [.start 20, .stage (.whole (.binary newAgent)), .install "v2.0.0" (some "job") 20, .start 20]

/-- a candidate that exits in its trial is replaced at its second start -/
theorem upgrade_survives_exit :
    (run false (.init oldAgent) (upgradeRun ++ [.start 20])).fs .currentExe = installed oldAgent :=
  (upgrade_survives false oldAgent (upgradeRun ++ [.start 20]) (by decide)).2 (by decide) (by decide) (by decide)

/-- the second start is killed after the first rename of its rollback: no binary is left to start. In the other run a
candidate within its stability window starts another upgrade, which is killed, and loses its own trial: it stays. -/
theorem killed_between_renames :
    let s := run false (.init oldAgent) (upgradeRun ++ [.start 1])
    let other := run false (.init oldAgent)
      (upgradeRun ++ [.commit 20, .stage (.whole (.binary ⟨"3.0.0", 3⟩)), .install "3.0.0" none 4, .start 20])
    s.fs .currentExe = none ∧
      (other.finalized = false ∧ other.starts = 2 ∧ other.fs .currentExe = installed newAgent) := by decide

end ServerBee.Upgrade
