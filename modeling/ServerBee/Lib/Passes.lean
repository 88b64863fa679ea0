/-
Passes over a list of keys or of instants, and what of their results does not depend on the order of the list.
-/
import Mathlib.Data.List.Perm.Basic
import Mathlib.Order.MinMax
import Mathlib.Tactic.Common

namespace ServerBee.Lib

variable {κ γ β : Type}

/-! ## A map that is emptied on the way -/

section Drain

variable [DecidableEq κ] (out : κ → γ → β) (empty : γ)

/-- each key takes what the map holds for it; a key that comes again finds `empty` -/
def drain (get : κ → γ) : List κ → List β
  | [] => []
  | k :: ks => out k (get k) :: drain (Function.update get k empty) ks

/-- what the map holds for other keys does not matter -/
theorem drain_congr {get get' : κ → γ} {ks : List κ} (h : ∀ k ∈ ks, get k = get' k) :
    drain out empty get ks = drain out empty get' ks := by
  induction ks generalizing get get' with
  | nil => rfl
  | cons k ks ih =>
    rw [drain, drain, h k List.mem_cons_self]
    congr 1
    apply ih
    intro k' hk'
    by_cases heq : k' = k
    · rw [heq, Function.update_self, Function.update_self]
    · rw [Function.update_of_ne heq, Function.update_of_ne heq, h k' (List.mem_cons_of_mem k hk')]

theorem mem_drain {get : κ → γ} {ks : List κ} {b : β} (h : b ∈ drain out empty get ks) :
    ∃ k ∈ ks, b = out k (get k) ∨ b = out k empty := by
  induction ks generalizing get with
  | nil => cases h
  | cons k ks ih =>
    rcases List.mem_cons.1 h with rfl | h
    · exact ⟨k, List.mem_cons_self, .inl rfl⟩
    · obtain ⟨k', hk', hb⟩ := ih h
      refine ⟨k', List.mem_cons_of_mem k hk', ?_⟩
      by_cases heq : k' = k
      · rw [heq, Function.update_self] at hb
        rw [heq]
        exact .inr (or_self_iff.1 hb)
      · rwa [Function.update_of_ne heq] at hb

/-- a key takes what is there the first time that it comes -/
theorem taken_mem_drain {get : κ → γ} {ks : List κ} {k : κ} (hk : k ∈ ks) : out k (get k) ∈ drain out empty get ks := by
  induction ks generalizing get with
  | nil => cases hk
  | cons k' ks ih =>
    rw [drain]
    by_cases heq : k = k'
    · rw [heq]
      exact List.mem_cons_self
    · have hget : out k (Function.update get k' empty k) ∈ drain out empty (Function.update get k' empty) ks :=
        ih ((List.mem_cons.1 hk).resolve_left heq)
      rw [Function.update_of_ne heq] at hget
      exact List.mem_cons_of_mem _ hget

theorem drain_of_nodup {get : κ → γ} {ks : List κ} (h : ks.Nodup) :
    drain out empty get ks = ks.map fun k => out k (get k) := by
  induction ks generalizing get with
  | nil => rfl
  | cons k ks ih =>
    obtain ⟨hk, hks⟩ := List.nodup_cons.1 h
    have hrest : drain out empty (Function.update get k empty) ks = drain out empty get ks := by
      apply drain_congr
      intro k' hk'
      have hne : k' ≠ k := fun heq => hk (by rwa [← heq])
      exact Function.update_of_ne hne _ _
    rw [drain, hrest, ih hks, List.map_cons]

/-- in another order the keys take the same -/
theorem drain_perm {get : κ → γ} {ks ks' : List κ} (h : ks.Perm ks') :
    (drain out empty get ks).Perm (drain out empty get ks') := by
  induction h generalizing get with
  | nil => exact List.Perm.refl _
  | cons k _ ih => exact ih.cons _
  | swap k k' ks =>
    rw [drain, drain, drain, drain]
    by_cases heq : k = k'
    · rw [heq]
    · rw [Function.update_of_ne heq, Function.update_of_ne (Ne.symm heq), Function.update_comm heq]
      exact List.Perm.swap _ _ _
  | trans _ _ ih ih' => exact ih.trans ih'

end Drain

/-! ## The latest of some instants -/

section Latest

variable {α : Type} [LinearOrder α]

/-- the later of what was seen and a further instant -/
def later (last : Option α) (t : α) : Option α :=
  match last with
  | some existing => if existing < t then some t else some existing
  | none => some t

theorem later_some (existing t : α) : later (some existing) t = some (max existing t) := by
  rw [later]
  split
  · rename_i h
    rw [max_eq_right (le_of_lt h)]
  · rename_i h
    rw [max_eq_left (not_lt.1 h)]

theorem later_comm (last : Option α) (t t' : α) : later (later last t) t' = later (later last t') t := by
  cases last with
  | none =>
    change later (some t) t' = later (some t') t
    rw [later_some, later_some, max_comm]
  | some existing => simp only [later_some, max_right_comm]

/-- instants in another order have the same latest -/
theorem foldl_later_perm {ts ts' : List α} (h : ts.Perm ts') (last : Option α) :
    ts.foldl later last = ts'.foldl later last := by
  have : RightCommutative (later (α := α)) := ⟨later_comm⟩
  exact h.foldl_eq last

end Latest

end ServerBee.Lib
