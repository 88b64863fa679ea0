/-
Saving the run token (`run_token_store.rs`) when calls fail and the agent is killed.

A save writes a temporary file with the new contents and renames it over the configuration. Every call asks the operating system for a
verdict; a write that fails leaves the temporary file torn. A save may be killed between any two operations, and the next one starts
from the files as they are then.
-/
import ServerBee.Lib.Crash
import ServerBee.RunToken.Content

namespace ServerBee.RunToken

open ServerBee.Lib

inductive Name where
  | config
  | temp (id : ℕ)
deriving DecidableEq, Repr

inductive Failure where
  | read
  | create
  | write
  | sync
  | replace
deriving DecidableEq, Repr

structure Disk where
  files : Files Name Text
  /-- what the next calls come to; after these all succeed -/
  verdicts : List Bool

inductive Call where
  | verdict
  | file (op : FileOp Name Text)

def exec : Call → Disk → Disk
  | .verdict, d => { d with verdicts := d.verdicts.tail }
  | .file op, d => { d with files := op.exec d.files }

abbrev Io (α : Type) := ExceptT Failure (Prog Call Disk) α

def look : Io Disk := ExceptT.mk (.look fun d => .done (.ok d))

def perform (c : Call) : Io Unit := ExceptT.mk (.act c (.done (.ok ())))

def verdict : Io Bool := do
  let d ← look
  perform .verdict
  return d.verdicts.headD true

def call (failure : Failure) : Io Unit := do
  if ← verdict then pure () else throw failure

/-! ## A save -/

/-- no file is an empty text -/
def readExisting : Io Text := do
  match (← look).files .config with
  | none => return []
  | some .torn => throw .read
  | some (.whole text) =>
    call .read
    return text

def writeTemp (temp : ℕ) (rendered : Text) : Io Unit := do
  call .create
  if ((← look).files (.temp temp)).isSome then throw .create
  else
    perform (.file (.create (.temp temp)))
    call .write
    perform (.file (.write (.temp temp) (.whole rendered)))
    call .sync

/-- the sync of the directory may fail unnoticed -/
def replaceFile (temp : ℕ) : Io Unit := do
  call .replace
  perform (.file (.rename (.temp temp) .config))
  let _ ← verdict

def removeTemp (temp : ℕ) : Io Unit := do
  if ← verdict then perform (.file (.remove (.temp temp))) else pure ()

def persistRunToken (temp : ℕ) (token : Text) : Io Unit := do
  let existing ← readExisting
  let rendered := renderTokenContent existing token
  tryCatch (do writeTemp temp rendered; replaceFile temp) fun e => do
    removeTemp temp
    throw e

/-! ## What a save does to the configuration -/

/-- the configuration, if a file, is complete -/
def Complete (files : Files Name Text) : Prop := files .config ≠ some .torn

def textOf : Option (File Text) → Text
  | some (.whole text) => text
  | _ => []

/-- the configuration is the old one or the new one -/
def Stands (old new : Option (File Text)) (_ : Call) (d : Disk) : Prop := d.files .config = old ∨ d.files .config = new

/-- the old one after an error, else the new one -/
def Ends (old new : Option (File Text)) : Except Failure Unit → Disk → Prop
  | .ok _, d => d.files .config = new
  | .error _, d => d.files .config = old

theorem config_ne_temp (id : ℕ) : Name.config ≠ .temp id := by
  intro h
  cases h

section Save

variable {old new : Option (File Text)} {d : Disk}

theorem verdict_holds {Q : Except Failure Bool → Disk → Prop} (hd : Stands old new .verdict d)
    (hQ : ∀ b, Q (.ok b) (exec .verdict d)) : verdict.run.Holds exec (Stands old new) Q d :=
  ⟨hd, hQ _⟩

theorem call_holds {Q : Except Failure Unit → Disk → Prop} {failure : Failure} (hd : Stands old new .verdict d)
    (hok : Q (.ok ()) (exec .verdict d)) (herror : Q (.error failure) (exec .verdict d)) :
    (call failure).run.Holds exec (Stands old new) Q d := by
  refine Prog.Holds.seq (verdict_holds hd fun b => ?_)
  cases b with
  | true => exact hok
  | false => exact herror

theorem readExisting_holds {Q : Except Failure Text → Disk → Prop} (hold : d.files .config = old) (hcomplete : Complete d.files)
    (hok : ∀ d', d'.files = d.files → Q (.ok (textOf old)) d') (herror : ∀ d', d'.files = d.files → Q (.error .read) d') :
    readExisting.run.Holds exec (Stands old new) Q d := by
  refine Prog.Holds.seq ?_
  show Prog.Holds exec (Stands old new) Q (ExceptT.run (match d.files .config with
    | none => return []
    | some .torn => throw .read
    | some (.whole text) => do
      call .read
      return text)) d
  cases hfile : d.files .config with
  | none =>
    rw [← hold, hfile] at hok
    exact hok d rfl
  | some file =>
    cases file with
    | torn => exact absurd hfile hcomplete
    | whole text =>
      rw [← hold, hfile] at hok
      exact Prog.Holds.seq (call_holds (.inl hold) (hok _ rfl) (herror _ rfl))

theorem perform_holds {Q : Except Failure Unit → Disk → Prop} {c : Call} (hd : Stands old new c (exec c d))
    (hQ : Q (.ok ()) (exec c d)) : (perform c).run.Holds exec (Stands old new) Q d :=
  ⟨hd, hQ⟩

/-- the temporary file is written beside the configuration -/
theorem writeTemp_holds {Q : Except Failure Unit → Disk → Prop} {temp : ℕ} {rendered : Text} (hold : d.files .config = old)
    (hok : ∀ d' : Disk, d'.files .config = old → d'.files (.temp temp) = some (.whole rendered) → Q (.ok ()) d')
    (herror : ∀ (d' : Disk) e, d'.files .config = old → Q (.error e) d') :
    (writeTemp temp rendered).run.Holds exec (Stands old new) Q d := by
  have hbeside : ∀ (fs : Files Name Text) x, fs .config = old → Function.update fs (.temp temp) x .config = old := by
    intro fs x hfs
    rwa [Function.update_of_ne (config_ne_temp temp)]
  refine Prog.Holds.seq (call_holds (.inl hold) ?_ (herror _ _ hold))
  refine Prog.Holds.seq ?_
  show Prog.Holds exec (Stands old new) Q (ExceptT.run (if (d.files (.temp temp)).isSome = true then throw .create else _)) _
  split_ifs
  · exact herror _ _ hold
  · have hcreated := hbeside d.files (some .torn) hold
    refine Prog.Holds.seq (perform_holds (.inl hcreated) ?_)
    refine Prog.Holds.seq (call_holds (.inl hcreated) ?_ (herror _ _ hcreated))
    have hwritten := hbeside _ (some (.whole rendered)) hcreated
    refine Prog.Holds.seq (perform_holds (.inl hwritten) ?_)
    refine call_holds (.inl hwritten) ?_ (herror _ _ hwritten)
    refine hok _ hwritten ?_
    exact Function.update_self _ _ _

theorem replaceFile_holds {temp : ℕ} (hold : d.files .config = old) (hnew : d.files (.temp temp) = new) :
    (replaceFile temp).run.Holds exec (Stands old new) (Ends old new) d := by
  refine Prog.Holds.seq (call_holds (.inl hold) ?_ hold)
  have hreplaced : (exec (.file (.rename (.temp temp) .config)) (exec .verdict d)).files .config = new := by
    simp only [exec, FileOp.exec]
    rw [Function.update_of_ne (config_ne_temp temp), Function.update_self, hnew]
  refine Prog.Holds.seq (perform_holds (.inr hreplaced) ?_)
  exact Prog.Holds.seq (verdict_holds (.inr hreplaced) fun _ => hreplaced)

theorem removeTemp_holds {Q : Except Failure Unit → Disk → Prop} {temp : ℕ} (hold : d.files .config = old)
    (hQ : ∀ d' : Disk, d'.files .config = old → Q (.ok ()) d') : (removeTemp temp).run.Holds exec (Stands old new) Q d := by
  refine Prog.Holds.seq (verdict_holds (.inl hold) fun b => ?_)
  cases b with
  | true =>
    have hremoved : (exec (.file (.remove (.temp temp))) (exec .verdict d)).files .config = old := by
      simp only [exec, FileOp.exec]
      rwa [Function.update_of_ne (config_ne_temp temp)]
    exact perform_holds (.inl hremoved) (hQ _ hremoved)
  | false => exact hQ _ hold

/-- a save leaves the old configuration or the new one at each of its operations, the old one after an error -/
theorem persistRunToken_holds (hcomplete : Complete d.files) (temp : ℕ) (token : Text) :
    (persistRunToken temp token).run.Holds exec
      (Stands (d.files .config) (some (.whole (renderTokenContent (textOf (d.files .config)) token))))
      (Ends (d.files .config) (some (.whole (renderTokenContent (textOf (d.files .config)) token)))) d := by
  refine Prog.Holds.seq (readExisting_holds rfl hcomplete ?_ ?_)
  · intro d' hd'
    have hold : d'.files .config = d.files .config := by rw [hd']
    refine Prog.Holds.tryCatch (Prog.Holds.seq (writeTemp_holds hold ?_ ?_))
    · intro d'' hold' hnew
      refine (replaceFile_holds hold' hnew).mono ?_
      intro r d''' hends
      cases r with
      | ok _ => exact hends
      | error e => exact Prog.Holds.seq (removeTemp_holds hends fun _ hkept => hkept)
    · intro d'' e hold'
      exact Prog.Holds.seq (removeTemp_holds hold' fun _ hkept => hkept)
  · intro d' hd'
    show d'.files .config = d.files .config
    rw [hd']

end Save

/-! ## Saves one after the other -/

/-- a save with its token, the verdicts that its calls get, and how many operations it gets to do -/
structure Save where
  temp : ℕ
  token : Text
  verdicts : List Bool
  operations : ℕ

def save (files : Files Name Text) (sv : Save) : Files Name Text × Prog.End Call (Except Failure Unit) :=
  let r := (persistRunToken sv.temp sv.token).run.run exec sv.operations none ⟨files, sv.verdicts⟩
  (r.1.files, r.2)

def runSaves (files : Files Name Text) (saves : List Save) : Files Name Text := saves.foldl (fun files sv => (save files sv).1) files

/-- the save says that the token is stored -/
def isStored : Prog.End Call (Except Failure Unit) → Bool
  | .finished (.ok _) => true
  | _ => false

/-- the save says that it is not -/
def isError : Prog.End Call (Except Failure Unit) → Bool
  | .finished (.error _) => true
  | _ => false

def storedTokens (files : Files Name Text) : List Save → List Text
  | [] => []
  | sv :: saves => (if isStored (save files sv).2 then [sv.token] else []) ++ storedTokens (save files sv).1 saves

def possibleTokens (files : Files Name Text) : List Save → List Text
  | [] => []
  | sv :: saves => (if isError (save files sv).2 then [] else [sv.token]) ++ possibleTokens (save files sv).1 saves

theorem save_cases {files : Files Name Text} (hcomplete : Complete files) (sv : Save) :
    ((save files sv).1 .config = files .config ∧ isStored (save files sv).2 = false) ∨
      ((save files sv).1 .config = some (.whole (renderTokenContent (textOf (files .config)) sv.token)) ∧
        isError (save files sv).2 = false) := by
  have hrun := (persistRunToken_holds (d := ⟨files, sv.verdicts⟩) hcomplete sv.temp sv.token).run sv.operations none
  unfold save
  generalize (persistRunToken sv.temp sv.token).run.run exec sv.operations none ⟨files, sv.verdicts⟩ = r at hrun ⊢
  obtain ⟨d, e⟩ := r
  cases e with
  | finished result =>
    cases result with
    | ok _ => exact .inr ⟨hrun, rfl⟩
    | error _ => exact .inl ⟨hrun, rfl⟩
  | killed last =>
    rcases hrun with ⟨rfl, _⟩ | ⟨_, _, hold | hnew⟩
    · exact .inl ⟨rfl, rfl⟩
    · exact .inl ⟨hold, rfl⟩
    · exact .inr ⟨hnew, rfl⟩

/-- the contents after some tokens -/
def landedOn (original : Option (File Text)) (landed : List Text) : Option (File Text) :=
  landed.foldl (fun file token => some (.whole (renderTokenContent (textOf file) token))) original

/-- the tokens that landed are those stored, and maybe some of saves that were killed -/
theorem runSaves_landed {files : Files Name Text} (hcomplete : Complete files) (saves : List Save) :
    ∃ landed, (storedTokens files saves).Sublist landed ∧ landed.Sublist (possibleTokens files saves) ∧
      runSaves files saves .config = landedOn (files .config) landed := by
  induction saves generalizing files with
  | nil => exact ⟨[], List.Sublist.refl _, List.Sublist.refl _, rfl⟩
  | cons sv saves ih =>
    have hnext : Complete (save files sv).1 := by
      rcases save_cases hcomplete sv with ⟨hold, _⟩ | ⟨hnew, _⟩
      · rwa [Complete, hold]
      · rw [Complete, hnew]
        simp
    obtain ⟨landed, hstored, hpossible, hfinal⟩ := ih hnext
    rcases save_cases hcomplete sv with ⟨hold, hout⟩ | ⟨hnew, hin⟩
    · refine ⟨landed, ?_, ?_, ?_⟩
      · rw [storedTokens, hout]
        exact hstored
      · exact hpossible.trans (List.sublist_append_right _ _)
      · rw [← hold]
        exact hfinal
    · refine ⟨sv.token :: landed, ?_, ?_, ?_⟩
      · rw [storedTokens]
        split_ifs
        · exact hstored.cons_cons _
        · exact hstored.cons _
      · rw [possibleTokens, hin]
        exact hpossible.cons_cons _
      · rw [landedOn, List.foldl_cons, ← hnew]
        exact hfinal

/-- tokens that land one after the other leave what the last one leaves -/
theorem landedOn_eq {original : Option (File Text)} (hclean : Clean (textOf original)) {landed : List Text}
    (htokens : ∀ t ∈ landed, '\n' ∉ t) :
    landedOn original landed =
      landed.getLast?.elim original fun token => some (.whole (renderTokenContent (textOf original) token)) := by
  cases landed with
  | nil => rfl
  | cons token landed =>
    obtain ⟨htoken, hrest⟩ := List.forall_mem_cons.1 htokens
    have hwhole : ∀ (ts : List Text) text, landedOn (some (.whole text)) ts = some (.whole (ts.foldl renderTokenContent text)) := by
      intro ts
      induction ts with
      | nil => exact fun _ => rfl
      | cons t ts ih => exact fun text => ih (renderTokenContent text t)
    have hfirst : landedOn original (token :: landed) = landedOn (some (.whole (renderTokenContent (textOf original) token))) landed :=
      rfl
    rw [hfirst, hwhole, foldl_render hclean htoken hrest, List.getLast?_cons, List.getLastD_eq_getLast?,
      Option.elim_some]

theorem possibleTokens_mem {files : Files Name Text} {saves : List Save} {token : Text} (h : token ∈ possibleTokens files saves) :
    ∃ sv ∈ saves, sv.token = token := by
  induction saves generalizing files with
  | nil => cases h
  | cons sv saves ih =>
    rcases List.mem_append.1 h with h | h
    · split_ifs at h
      · cases h
      · exact ⟨sv, List.mem_cons_self, (List.mem_singleton.1 h).symm⟩
    · obtain ⟨sv', hsv', heq⟩ := ih h
      exact ⟨sv', List.mem_cons_of_mem sv hsv', heq⟩

/-- **Saves.** Whatever calls fail and wherever saves are killed, the configuration stays a complete file. Some saves landed: all that
said so, none that reported an error. If none did, the file is the first one; else it is the first one with the token of the last save
that landed, as if no other save had ever been made. -/
theorem saves_end {files : Files Name Text} (hcomplete : Complete files) (hclean : Clean (textOf (files .config))) {saves : List Save}
    (htokens : ∀ sv ∈ saves, '\n' ∉ sv.token) :
    ∃ landed, (storedTokens files saves).Sublist landed ∧ landed.Sublist (possibleTokens files saves) ∧
      runSaves files saves .config =
        landed.getLast?.elim (files .config) fun token => some (.whole (renderTokenContent (textOf (files .config)) token)) := by
  obtain ⟨landed, hstored, hpossible, hfinal⟩ := runSaves_landed hcomplete saves
  refine ⟨landed, hstored, hpossible, ?_⟩
  rw [hfinal]
  refine landedOn_eq hclean fun t ht => ?_
  obtain ⟨sv, hsv, rfl⟩ := possibleTokens_mem (hpossible.subset ht)
  exact htokens sv hsv

/-- a first save on a machine without a configuration, and one that is killed -/
def firstSaves : List Save := [⟨0, ['a'], [], 20⟩, ⟨1, ['b'], [], 3⟩]

theorem firstSaves_end : ∃ landed, (storedTokens (fun _ => none) firstSaves).Sublist landed ∧
    landed.Sublist (possibleTokens (fun _ => none) firstSaves) ∧
      runSaves (fun _ => none) firstSaves .config =
        landed.getLast?.elim none fun token => some (.whole (renderTokenContent [] token)) := by
  have hclean : Clean (textOf none) := by
    intro l hl
    cases hl
  exact saves_end (fun h => by cases h) hclean (by decide)

end ServerBee.RunToken
