/-
Files written at offsets.

A position of a file holds the value that was written there last, or nothing if only a later position was written.
`writeAt` writes a value for each position from an offset on; writing no values changes nothing. `whole_iff` says when
writes to an empty file leave a file of a given size without holes: none goes beyond the size, and they cover it.
-/
import Mathlib.Tactic

namespace ServerBee.Lib.Sparse

variable {α : Type}

abbrev Content (α : Type) := List (Option α)

/-- the content, extended to `offset` -/
def extend (f : Content α) (offset : ℕ) : Content α := f ++ List.replicate (offset - f.length) none

def writeAt (f : Content α) (offset : ℕ) (values : List α) : Content α :=
  if values = [] then f
  else (extend f offset).take offset ++ values.map some ++ (extend f offset).drop (offset + values.length)

/-- a write: an offset and the values from there on -/
abbrev Write (α : Type) := ℕ × List α

def Write.covers (w : Write α) (i : ℕ) : Prop := w.1 ≤ i ∧ i < w.1 + w.2.length

/-- no value of the write is at or beyond `size` -/
def Write.within (w : Write α) (size : ℕ) : Prop := w.2 = [] ∨ w.1 + w.2.length ≤ size

def writes (f : Content α) (ws : List (Write α)) : Content α := ws.foldl (fun f w => writeAt f w.1 w.2) f

def Written (f : Content α) (i : ℕ) : Prop := ∃ a, f[i]? = some (some a)

/-- the positions below `size`, each of them written -/
def Whole (f : Content α) (size : ℕ) : Prop := f.length = size ∧ ∀ i < size, Written f i

theorem length_extend (f : Content α) (offset : ℕ) : (extend f offset).length = max f.length offset := by
  simp [extend]
  omega

theorem getElem?_extend (f : Content α) {offset i : ℕ} :
    (extend f offset)[i]? = if i < f.length then f[i]? else if i < offset then some none else none := by
  unfold extend
  split_ifs with hi ho
  · rw [List.getElem?_append_left hi]
  · rw [List.getElem?_append_right (not_lt.1 hi), List.getElem?_replicate, if_pos (by omega)]
  · rw [List.getElem?_append_right (not_lt.1 hi), List.getElem?_replicate, if_neg (by omega)]

theorem length_writeAt (f : Content α) (offset : ℕ) (values : List α) :
    (writeAt f offset values).length = if values = [] then f.length else max f.length (offset + values.length) := by
  unfold writeAt
  split_ifs with h
  · rfl
  · simp only [List.length_append, List.length_take, List.length_map, List.length_drop, length_extend]
    omega

theorem written_extend (f : Content α) (offset i : ℕ) : Written (extend f offset) i ↔ Written f i := by
  refine exists_congr fun a => ?_
  rw [getElem?_extend]
  split_ifs with hi ho
  · exact Iff.rfl
  · rw [List.getElem?_eq_none (not_lt.1 hi)]
    simp
  · rw [List.getElem?_eq_none (not_lt.1 hi)]
    simp

theorem written_writeAt (f : Content α) (w : Write α) (i : ℕ) : Written (writeAt f w.1 w.2) i ↔ w.covers i ∨ Written f i := by
  obtain ⟨offset, values⟩ := w
  unfold writeAt Write.covers
  dsimp only
  split_ifs with h
  · subst h
    simp only [List.length_nil, Nat.add_zero]
    exact ⟨Or.inr, fun h => h.resolve_left fun h => by omega⟩
  · have hlen : ((extend f offset).take offset).length = offset := by
      rw [List.length_take, length_extend]
      omega
    rcases lt_or_ge i offset with hi | hi
    · -- before the write
      have hget : ((extend f offset).take offset ++ values.map some ++ (extend f offset).drop (offset + values.length))[i]? =
          (extend f offset)[i]? := by
        rw [List.append_assoc, List.getElem?_append_left (by rw [hlen]; exact hi), List.getElem?_take_of_lt hi]
      rw [← written_extend f offset i]
      simp only [Written, hget]
      exact ⟨Or.inr, fun h => h.resolve_left fun h => absurd h.1 (not_le.2 hi)⟩
    · rcases lt_or_ge i (offset + values.length) with hi' | hi'
      · -- in the write
        refine iff_of_true ?_ (Or.inl ⟨hi, hi'⟩)
        have hlt : i - offset < values.length := by omega
        refine ⟨values[i - offset], ?_⟩
        rw [List.append_assoc, List.getElem?_append_right (by rw [hlen]; exact hi), hlen,
          List.getElem?_append_left (by rw [List.length_map]; exact hlt), List.getElem?_map, List.getElem?_eq_getElem hlt]
        rfl
      · -- after the write
        have hget : ((extend f offset).take offset ++ values.map some ++ (extend f offset).drop (offset + values.length))[i]? =
            (extend f offset)[i]? := by
          rw [List.getElem?_append_right (by rw [List.length_append, hlen, List.length_map]; exact hi'), List.length_append,
            hlen, List.length_map, List.getElem?_drop]
          congr 1
          omega
        rw [← written_extend f offset i]
        simp only [Written, hget]
        exact ⟨Or.inr, fun h => h.resolve_left fun h => absurd h.2 (not_lt.2 hi')⟩

theorem written_writes (f : Content α) (ws : List (Write α)) (i : ℕ) :
    Written (writes f ws) i ↔ Written f i ∨ ∃ w ∈ ws, Write.covers w i := by
  induction ws generalizing f with
  | nil => simp [writes]
  | cons w ws ih =>
    have hcons : writes f (w :: ws) = writes (writeAt f w.1 w.2) ws := rfl
    rw [hcons, ih, written_writeAt]
    simp only [List.mem_cons, exists_eq_or_imp]
    tauto

theorem length_writes_le (f : Content α) (ws : List (Write α)) (size : ℕ) :
    (writes f ws).length ≤ size ↔ f.length ≤ size ∧ ∀ w ∈ ws, Write.within w size := by
  induction ws generalizing f with
  | nil => simp [writes]
  | cons w ws ih =>
    have hcons : writes f (w :: ws) = writes (writeAt f w.1 w.2) ws := rfl
    rw [hcons, ih, length_writeAt]
    simp only [List.forall_mem_cons, Write.within]
    split_ifs with h
    · simp [h]
    · simp only [h, false_or, max_le_iff]
      tauto

theorem Written.lt {f : Content α} {i : ℕ} (h : Written f i) : i < f.length := by
  obtain ⟨a, ha⟩ := h
  exact (List.getElem?_eq_some_iff.1 ha).1

/-- a file written from nothing has a size and no holes exactly if no write goes beyond it and the writes cover it -/
theorem whole_iff (ws : List (Write α)) (size : ℕ) :
    Whole (writes [] ws) size ↔ (∀ w ∈ ws, Write.within w size) ∧ ∀ i < size, ∃ w ∈ ws, Write.covers w i := by
  have hwritten : ∀ i, Written (writes ([] : Content α) ws) i ↔ ∃ w ∈ ws, Write.covers w i := fun i => by
    rw [written_writes]
    simp [Written]
  have hle := length_writes_le ([] : Content α) ws size
  constructor
  · rintro ⟨hlen, hall⟩
    exact ⟨(hle.1 hlen.le).2, fun i hi => (hwritten i).1 (hall i hi)⟩
  · rintro ⟨hwithin, hall⟩
    refine ⟨le_antisymm (hle.2 ⟨Nat.zero_le _, hwithin⟩) ?_, fun i hi => (hwritten i).2 (hall i hi)⟩
    cases size with
    | zero => exact Nat.zero_le _
    | succ size => exact ((hwritten size).2 (hall size size.lt_succ_self)).lt

end ServerBee.Lib.Sparse
