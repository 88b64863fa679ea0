/-
Runs of a deterministic machine and what is asked of each of their steps.

`runs step s ops` is where the operations lead. `Along step P s ops`: every operation finds a state that meets `P` with it.
An invariant of the steps that meet `P` is one of the runs along `P`.
-/
import Mathlib.Data.List.Basic

namespace ServerBee.Lib

variable {σ ω : Type} (step : σ → ω → σ)

def runs (s : σ) (ops : List ω) : σ := ops.foldl step s

@[simp] theorem runs_nil (s : σ) : runs step s [] = s := rfl

@[simp] theorem runs_cons (s : σ) (op : ω) (ops : List ω) : runs step s (op :: ops) = runs step (step s op) ops := rfl

theorem runs_append (s : σ) (ops ops' : List ω) : runs step s (ops ++ ops') = runs step (runs step s ops) ops' :=
  List.foldl_append

def Along (P : σ → ω → Prop) : σ → List ω → Prop
  | _, [] => True
  | s, op :: ops => P s op ∧ Along P (step s op) ops

instance (P : σ → ω → Prop) [∀ s op, Decidable (P s op)] : ∀ s ops, Decidable (Along step P s ops)
  | _, [] => inferInstanceAs (Decidable True)
  | s, op :: ops =>
    have : Decidable (Along step P (step s op) ops) := instDecidableAlong P (step s op) ops
    inferInstanceAs (Decidable (P s op ∧ Along step P (step s op) ops))

variable {step} {P Q : σ → ω → Prop}

theorem along_append {s : σ} {ops ops' : List ω} :
    Along step P s (ops ++ ops') ↔ Along step P s ops ∧ Along step P (runs step s ops) ops' := by
  induction ops generalizing s with
  | nil => simp [Along]
  | cons op ops ih =>
    show P s op ∧ Along step P (step s op) (ops ++ ops') ↔ _
    rw [ih, ← and_assoc]
    rfl

/-- what every step keeps, every run keeps -/
theorem Along.invariant {I : σ → Prop} (h : ∀ s op, I s → P s op → I (step s op)) {s : σ} {ops : List ω} (hs : I s)
    (hops : Along step P s ops) : I (runs step s ops) := by
  induction ops generalizing s with
  | nil => exact hs
  | cons op ops ih => exact ih (h s op hs hops.1) hops.2

/-- a property of each operation and one of the states that it finds -/
theorem Along.imp {s : σ} {ops : List ω} (h : Along step P s ops) (himp : ∀ op ∈ ops, ∀ s, P s op → Q s op) :
    Along step Q s ops := by
  induction ops generalizing s with
  | nil => trivial
  | cons op ops ih =>
    exact ⟨himp op List.mem_cons_self s h.1, ih h.2 fun op' hop' => himp op' (List.mem_cons_of_mem _ hop')⟩

/-- where an invariant of the steps that meet `P` gives `Q` -/
theorem Along.of_invariant {I : σ → Prop} (hI : ∀ s op, I s → P s op → I (step s op)) (h : ∀ s op, I s → P s op → Q s op)
    {s : σ} (hs : I s) {ops : List ω} (hops : Along step P s ops) : Along step Q s ops := by
  induction ops generalizing s with
  | nil => trivial
  | cons op ops ih => exact ⟨h s op hs hops.1, ih (hI s op hs hops.1) hops.2⟩

/-- what two properties of a step mean is the same in the states of an invariant -/
theorem along_congr {I : σ → Prop} (hI : ∀ s op, I s → Q s op → I (step s op)) (h : ∀ s op, I s → (P s op ↔ Q s op)) {s : σ}
    (hs : I s) (ops : List ω) : Along step P s ops ↔ Along step Q s ops := by
  constructor
  · exact Along.of_invariant (fun s op hs hp => hI s op hs ((h s op hs).1 hp)) (fun s op hs => (h s op hs).1) hs
  · exact Along.of_invariant hI (fun s op hs => (h s op hs).2) hs

theorem Along.and {s : σ} {ops : List ω} (h : Along step P s ops) (h' : Along step Q s ops) :
    Along step (fun s op => P s op ∧ Q s op) s ops := by
  induction ops generalizing s with
  | nil => trivial
  | cons op ops ih => exact ⟨⟨h.1, h'.1⟩, ih h.2 h'.2⟩

end ServerBee.Lib
