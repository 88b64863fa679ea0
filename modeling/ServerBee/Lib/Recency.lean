/-
What was used most recently.

`recency h` are the distinct elements of a history, newest first, each where it was used last; `recent cap h` are the first
`cap` of them. `recent_cons` is how a cache computes it one use at a time: a hit moves to the front, a miss goes to the
front of all but the last of a full cache.
-/
import Mathlib.Tactic

namespace ServerBee.Lib

variable {α : Type} [DecidableEq α]

/-- the distinct elements of a history, newest first -/
def recency : List α → List α
  | [] => []
  | a :: h => a :: (recency h).filter (· ≠ a)

/-- the `cap` most recent distinct elements -/
def recent (cap : ℕ) (h : List α) : List α := (recency h).take cap

theorem mem_recency {a : α} {h : List α} : a ∈ recency h ↔ a ∈ h := by
  induction h with
  | nil => simp [recency]
  | cons b h ih =>
    simp only [recency, List.mem_cons, List.mem_filter, ih, decide_eq_true_eq]
    by_cases hab : a = b <;> simp [hab]

theorem nodup_recency (h : List α) : (recency h).Nodup := by
  induction h with
  | nil => exact List.nodup_nil
  | cons b h ih =>
    rw [recency, List.nodup_cons]
    refine ⟨?_, ih.filter _⟩
    simp

theorem recency_of_nodup {h : List α} (hd : h.Nodup) : recency h = h := by
  induction h with
  | nil => rfl
  | cons a h ih =>
    obtain ⟨ha, hh⟩ := List.nodup_cons.1 hd
    rw [recency, ih hh, List.filter_eq_self.2]
    intro b hb
    rw [decide_eq_true_eq]
    rintro rfl
    exact ha hb

theorem nodup_recent (cap : ℕ) (h : List α) : (recent cap h).Nodup := (nodup_recency h).sublist (List.take_sublist _ _)

theorem length_recent_le (cap : ℕ) (h : List α) : (recent cap h).length ≤ cap := List.length_take_le _ _

/-- all of a history that fits -/
theorem recent_of_nodup {cap : ℕ} {h : List α} (hd : h.Nodup) (hlen : h.length ≤ cap) : recent cap h = h := by
  rw [recent, recency_of_nodup hd, List.take_of_length_le hlen]

theorem filter_ne {l : List α} (hl : l.Nodup) (a : α) : l.filter (· ≠ a) = l.erase a := by
  rw [hl.erase_eq_filter]
  apply List.filter_congr
  intro b _
  rw [bne, Bool.eq_iff_iff]
  simp

/-- dropping one element, then cutting, looks at no more than one element beyond the cut -/
theorem take_filter_ne {l : List α} (hl : l.Nodup) (n : ℕ) (a : α) :
    ((l.take (n + 1)).filter (· ≠ a)).take n = (l.filter (· ≠ a)).take n := by
  by_cases hlen : l.length ≤ n + 1
  · rw [List.take_of_length_le hlen]
  have hshort : n ≤ ((l.take (n + 1)).filter (· ≠ a)).length := by
    have hnodup : (l.take (n + 1)).Nodup := hl.sublist (List.take_sublist _ _)
    rw [filter_ne hnodup, List.length_erase]
    have : (l.take (n + 1)).length = n + 1 := by simp; omega
    split_ifs <;> omega
  calc ((l.take (n + 1)).filter (· ≠ a)).take n
      = ((l.take (n + 1)).filter (· ≠ a) ++ (l.drop (n + 1)).filter (· ≠ a)).take n := (List.take_append_of_le_length hshort).symm
    _ = ((l.take (n + 1) ++ l.drop (n + 1)).filter (· ≠ a)).take n := by rw [List.filter_append]
    _ = (l.filter (· ≠ a)).take n := by rw [List.take_append_drop]

/-- **Recency.** One use changes what is most recent like one access of a cache that drops the least recent element. -/
theorem recent_cons {cap : ℕ} (hcap : 1 ≤ cap) (a : α) (h : List α) :
    recent cap (a :: h) = a :: ((recent cap h).filter (· ≠ a)).take (cap - 1) := by
  obtain ⟨n, rfl⟩ := Nat.exists_eq_add_of_le' hcap
  rw [recent, recency, List.take_succ_cons, Nat.add_sub_cancel, recent, take_filter_ne (nodup_recency h)]

/-- a hit -/
theorem recent_hit {cap : ℕ} (hcap : 1 ≤ cap) {a : α} {h : List α} (ha : a ∈ recent cap h) :
    recent cap (a :: h) = a :: (recent cap h).filter (· ≠ a) := by
  rw [recent_cons hcap, List.take_of_length_le]
  have hle := length_recent_le cap h
  rw [filter_ne (nodup_recent cap h), List.length_erase_of_mem ha]
  omega

/-- a miss -/
theorem recent_miss {cap : ℕ} (hcap : 1 ≤ cap) {a : α} {h : List α} (ha : a ∉ recent cap h) :
    recent cap (a :: h) = a :: (recent cap h).take (cap - 1) := by
  rw [recent_cons hcap, List.filter_eq_self.2]
  intro b hb
  rw [decide_eq_true_eq]
  rintro rfl
  exact ha hb

end ServerBee.Lib
