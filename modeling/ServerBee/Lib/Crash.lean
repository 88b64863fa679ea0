/-
Programs over files that may be killed between two operations.

A program looks at the state (`look`) and performs operations (`act`), each of which is atomic; `exec` says what an
operation does. `run` performs at most `n` operations: the program finishes, or it is killed and the last operation it
performed is named. `Holds I Q p s` is the program logic: started in `s`, every operation `o` of `p` leaves a state with
`I o`, and `p` finishes with `Q`. There is a rule for each construct, and `Holds.run` says what follows for a run that may
be killed.

The second part has files over any names and contents. `rename` and `remove` are atomic; a file that is created is torn
until its contents are written.
-/
import Mathlib.Tactic

namespace ServerBee.Lib

inductive Prog (ω σ α : Type) where
  | done (a : α)
  | look (k : σ → Prog ω σ α)
  | act (o : ω) (k : Prog ω σ α)

namespace Prog

variable {ω σ ε α β : Type}

def bind : Prog ω σ α → (α → Prog ω σ β) → Prog ω σ β
  | done a, f => f a
  | look k, f => look fun s => (k s).bind f
  | act o k, f => act o (k.bind f)

instance : Monad (Prog ω σ) where
  pure := done
  bind := bind

/-- how a run ends; a killed one names its last operation -/
inductive End (ω α : Type) where
  | finished (a : α)
  | killed (last : Option ω)
deriving DecidableEq, Repr

variable (exec : ω → σ → σ)

/-- at most `n` operations -/
def run : Prog ω σ α → ℕ → Option ω → σ → σ × End ω α
  | done a, _, _, s => (s, .finished a)
  | look k, n, last, s => (k s).run n last s
  | act _ _, 0, last, s => (s, .killed last)
  | act o k, n + 1, _, s => k.run n (some o) (exec o s)

def Holds (I : ω → σ → Prop) (Q : α → σ → Prop) : Prog ω σ α → σ → Prop
  | done a, s => Q a s
  | look k, s => (k s).Holds I Q s
  | act o k, s => I o (exec o s) ∧ k.Holds I Q (exec o s)

variable {exec} {I : ω → σ → Prop}

theorem Holds.mono {Q Q' : α → σ → Prop} {p : Prog ω σ α} {s : σ} (h : p.Holds exec I Q s)
    (hQ : ∀ a s', Q a s' → Q' a s') : p.Holds exec I Q' s := by
  induction p generalizing s with
  | done a => exact hQ a s h
  | look k ih => exact ih s h
  | act o k ih => exact ⟨h.1, ih h.2⟩

theorem Holds.bind {Q : β → σ → Prop} {p : Prog ω σ α} {f : α → Prog ω σ β} {s : σ}
    (h : p.Holds exec I (fun a s' => (f a).Holds exec I Q s') s) : (p >>= f).Holds exec I Q s := by
  induction p generalizing s with
  | done a => exact h
  | look k ih => exact ih s h
  | act o k ih => exact ⟨h.1, ih h.2⟩

/-- the rule for a sequence of fallible programs -/
theorem Holds.seq {Q : Except ε β → σ → Prop} {p : ExceptT ε (Prog ω σ) α} {f : α → ExceptT ε (Prog ω σ) β} {s : σ}
    (h : p.run.Holds exec I (fun r s' => match r with
      | .ok a => (f a).run.Holds exec I Q s'
      | .error e => Q (.error e) s') s) : (p >>= f).run.Holds exec I Q s := by
  refine Holds.bind (h.mono fun r s' hr => ?_)
  cases r with
  | ok a => exact hr
  | error e => exact hr

/-- the rule for a fallible program with a handler -/
theorem Holds.tryCatch {Q : Except ε α → σ → Prop} {p : ExceptT ε (Prog ω σ) α} {f : ε → ExceptT ε (Prog ω σ) α} {s : σ}
    (h : p.run.Holds exec I (fun r s' => match r with
      | .ok a => Q (.ok a) s'
      | .error e => (f e).run.Holds exec I Q s') s) : (tryCatch p f).run.Holds exec I Q s := by
  refine Holds.bind (h.mono fun r s' hr => ?_)
  cases r with
  | ok a => exact hr
  | error e => exact hr

/-- a run that is killed stops where it started, or right after an operation -/
theorem Holds.run {Q : α → σ → Prop} {p : Prog ω σ α} {s : σ} (h : p.Holds exec I Q s) (n : ℕ) (last : Option ω) :
    match p.run exec n last s with
    | (s', .finished a) => Q a s'
    | (s', .killed last') => s' = s ∧ last' = last ∨ ∃ o, last' = some o ∧ I o s' := by
  induction p generalizing s n last with
  | done a => exact h
  | look k ih => exact ih s h n last
  | act o k ih =>
    cases n with
    | zero => exact Or.inl ⟨rfl, rfl⟩
    | succ n =>
      have hk := ih h.2 n (some o)
      show match k.run exec n (some o) (exec o s) with
        | (s', .finished a) => Q a s'
        | (s', .killed last') => s' = s ∧ last' = last ∨ ∃ o, last' = some o ∧ I o s'
      generalize k.run exec n (some o) (exec o s) = r at hk ⊢
      obtain ⟨s', e⟩ := r
      cases e with
      | finished a => exact hk
      | killed last' =>
        rcases hk with ⟨rfl, rfl⟩ | hk
        · exact Or.inr ⟨o, rfl, h.1⟩
        · exact Or.inr hk

/-! ## Statements that may fail

Here each operation succeeds or fails, and other things may happen between two operations. `Keeps` is the program logic
for an invariant that may depend on the operation that comes next. -/

/-- the next operation and what follows it; lookups before it are done at once -/
def next : Prog ω σ α → σ → Option (ω × Prog ω σ α)
  | done _, _ => none
  | look k, s => (k s).next s
  | act o k, _ => some (o, k)

/-- `I` holds before each operation and `Q` at the end, when the outcome of each operation is as `ok` says -/
def Keeps (exec : ω → Bool → σ → σ) (ok : ω → Bool → σ → Prop) (I : Option ω → σ → Prop) (Q : α → σ → Prop) :
    Prog ω σ α → σ → Prop
  | done a, s => Q a s
  | look k, s => (k s).Keeps exec ok I Q s
  | act o k, s => I (some o) s ∧ ∀ b, ok o b s → k.Keeps exec ok I Q (exec o b s)

section Keeps

variable {exec : ω → Bool → σ → σ} {ok : ω → Bool → σ → Prop} {I : Option ω → σ → Prop}

theorem Keeps.mono {Q Q' : α → σ → Prop} {p : Prog ω σ α} {s : σ} (h : p.Keeps exec ok I Q s)
    (hQ : ∀ a s', Q a s' → Q' a s') : p.Keeps exec ok I Q' s := by
  induction p generalizing s with
  | done a => exact hQ a s h
  | look k ih => exact ih s h
  | act o k ih => exact ⟨h.1, fun b hb => ih (h.2 b hb)⟩

theorem Keeps.bind {Q : β → σ → Prop} {p : Prog ω σ α} {f : α → Prog ω σ β} {s : σ}
    (h : p.Keeps exec ok I (fun a s' => (f a).Keeps exec ok I Q s') s) : (p >>= f).Keeps exec ok I Q s := by
  induction p generalizing s with
  | done a => exact h
  | look k ih => exact ih s h
  | act o k ih => exact ⟨h.1, fun b hb => ih (h.2 b hb)⟩

/-- what holds at this point of the program -/
theorem Keeps.here {p : Prog ω σ α} {s : σ} (h : p.Keeps exec ok I (fun _ => I none) s) :
    I ((p.next s).map Prod.fst) s := by
  induction p generalizing s with
  | done a => exact h
  | look k ih => exact ih s h
  | act o k => exact h.1

theorem Keeps.step {Q : α → σ → Prop} {p k : Prog ω σ α} {s : σ} {o : ω} {b : Bool} (h : p.Keeps exec ok I Q s)
    (hnext : p.next s = some (o, k)) (hb : ok o b s) : k.Keeps exec ok I Q (exec o b s) := by
  induction p generalizing s with
  | done a => cases hnext
  | look k' ih => exact ih s h hnext hb
  | act o' k' =>
    cases hnext
    exact h.2 b hb

end Keeps

end Prog

/-! ## Files -/

inductive File (κ : Type) where
  | torn
  | whole (content : κ)
deriving DecidableEq, Repr

abbrev Files (ν κ : Type) := ν → Option (File κ)

inductive FileOp (ν κ : Type) where
  | remove (f : ν)
  | rename (f g : ν)
  | create (f : ν)
  | write (f : ν) (content : File κ)
deriving DecidableEq, Repr

namespace FileOp

variable {ν κ ε : Type} [DecidableEq ν]

def exec : FileOp ν κ → Files ν κ → Files ν κ
  | .remove f, fs => Function.update fs f none
  | .rename f g, fs => Function.update (Function.update fs g (fs f)) f none
  | .create f, fs => Function.update fs f (some .torn)
  | .write f content, fs => Function.update fs f (some content)

/-- fallible programs over files -/
abbrev Io (ν κ ε : Type) := ExceptT ε (Prog (FileOp ν κ) (Files ν κ))

def look : Io ν κ ε (Files ν κ) := ExceptT.mk (.look fun fs => .done (.ok fs))

def perform (o : FileOp ν κ) : Io ν κ ε Unit := ExceptT.mk (.act o (.done (.ok ())))

/-- removal that tolerates a missing file -/
def removeAny (f : ν) : Io ν κ ε Unit := do
  if ((← look) f).isSome then perform (.remove f) else pure ()

def renameFile (missing : ε) (f g : ν) : Io ν κ ε Unit := do
  if ((← look) f).isSome then perform (.rename f g) else throw missing

/-- a new file with these contents -/
def createWith (taken : ε) (f : ν) (content : κ) : Io ν κ ε Unit := do
  if ((← look) f).isSome then throw taken
  else
    perform (.create f)
    perform (.write f (.whole content))

/-- a copy in place: the target is torn until the contents are written -/
def copyFile (missing : ε) (f g : ν) : Io ν κ ε Unit := do
  match (← look) f with
  | none => throw missing
  | some content =>
    perform (.create g)
    perform (.write g content)

variable {I : FileOp ν κ → Files ν κ → Prop} {Q : Except ε Unit → Files ν κ → Prop} {fs : Files ν κ}

theorem look_holds {Q : Except ε (Files ν κ) → Files ν κ → Prop} (h : Q (.ok fs) fs) :
    (look : Io ν κ ε (Files ν κ)).run.Holds exec I Q fs :=
  h

theorem removeAny_holds {f : ν} (hI : I (.remove f) (Function.update fs f none))
    (hQ : Q (.ok ()) (Function.update fs f none)) :
    (removeAny f : Io ν κ ε Unit).run.Holds exec I Q fs := by
  refine Prog.Holds.seq ?_
  show Prog.Holds exec I Q (ExceptT.run (if (fs f).isSome = true then _ else _)) fs
  by_cases h : (fs f).isSome = true
  · rw [if_pos h]
    exact ⟨hI, hQ⟩
  · rw [if_neg h]
    rw [Option.not_isSome_iff_eq_none] at h
    rw [← h, Function.update_eq_self] at hQ
    exact hQ

theorem renameFile_holds {missing : ε} {f g : ν}
    (hI : (fs f).isSome = true → I (.rename f g) (exec (.rename f g) fs))
    (hQ : (fs f).isSome = true → Q (.ok ()) (exec (.rename f g) fs))
    (hmissing : fs f = none → Q (.error missing) fs) :
    (renameFile missing f g : Io ν κ ε Unit).run.Holds exec I Q fs := by
  refine Prog.Holds.seq ?_
  show Prog.Holds exec I Q (ExceptT.run (if (fs f).isSome = true then _ else _)) fs
  by_cases h : (fs f).isSome = true
  · rw [if_pos h]
    exact ⟨hI h, hQ h⟩
  · rw [if_neg h]
    exact hmissing (Option.not_isSome_iff_eq_none.1 h)

theorem createWith_holds {taken : ε} {f : ν} {content : κ} (hfree : fs f = none)
    (hcreate : I (.create f) (Function.update fs f (some .torn)))
    (hI : I (.write f (.whole content)) (Function.update fs f (some (.whole content))))
    (hQ : Q (.ok ()) (Function.update fs f (some (.whole content)))) :
    (createWith taken f content : Io ν κ ε Unit).run.Holds exec I Q fs := by
  refine Prog.Holds.seq ?_
  show Prog.Holds exec I Q (ExceptT.run (if (fs f).isSome = true then _ else _)) fs
  rw [hfree]
  refine ⟨hcreate, ?_⟩
  show I _ (Function.update (Function.update fs f (some .torn)) f _) ∧
    Q (.ok ()) (Function.update (Function.update fs f (some .torn)) f _)
  rw [Function.update_idem]
  exact ⟨hI, hQ⟩

theorem copyFile_holds {missing : ε} {f g : ν} {content : File κ} (hsource : fs f = some content)
    (hcreate : I (.create g) (Function.update fs g (some .torn)))
    (hI : I (.write g content) (Function.update fs g (some content)))
    (hQ : Q (.ok ()) (Function.update fs g (some content))) :
    (copyFile missing f g : Io ν κ ε Unit).run.Holds exec I Q fs := by
  refine Prog.Holds.seq ?_
  show Prog.Holds exec I Q (ExceptT.run (match fs f with
    | none => throw missing
    | some content => do
      perform (.create g)
      perform (.write g content))) fs
  rw [hsource]
  refine ⟨hcreate, ?_⟩
  show I _ (Function.update (Function.update fs g (some .torn)) g _) ∧
    Q (.ok ()) (Function.update (Function.update fs g (some .torn)) g _)
  rw [Function.update_idem]
  exact ⟨hI, hQ⟩

end FileOp

end ServerBee.Lib
