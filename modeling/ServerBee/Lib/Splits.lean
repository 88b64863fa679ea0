/-
Splitting a list at a separator: at the first place where a pattern begins, or at the last place of an element.
-/
import Mathlib.Tactic

namespace ServerBee.Lib

variable {α : Type} [DecidableEq α]

/-- around the first place where `pat` begins -/
def splitOnce (pat : List α) : List α → Option (List α × List α)
  | [] => if pat = [] then some ([], []) else none
  | a :: l => if pat.isPrefixOf (a :: l) then some ([], (a :: l).drop pat.length)
    else (splitOnce pat l).map fun parts => (a :: parts.1, parts.2)

/-- around the last place of `x` -/
def rsplitOnce (x : α) : List α → Option (List α × List α)
  | [] => none
  | a :: l => match rsplitOnce x l with
    | some parts => some (a :: parts.1, parts.2)
    | none => if a = x then some ([], l) else none

theorem splitOnce_eq_some {pat l before after : List α} (h : splitOnce pat l = some (before, after)) :
    l = before ++ pat ++ after := by
  induction l generalizing before with
  | nil =>
    simp only [splitOnce] at h
    split_ifs at h with hpat
    cases h
    simp [hpat]
  | cons a l ih =>
    simp only [splitOnce] at h
    split_ifs at h with hpat
    · obtain ⟨rest, hrest⟩ := List.isPrefixOf_iff_prefix.1 hpat
      cases h
      rw [← hrest]
      simp
    · obtain ⟨parts, hparts, heq⟩ := Option.map_eq_some_iff.1 h
      cases heq
      simp [ih hparts]

theorem rsplitOnce_eq_none {x : α} {l : List α} : rsplitOnce x l = none ↔ x ∉ l := by
  induction l with
  | nil => simp [rsplitOnce]
  | cons a l ih =>
    simp only [rsplitOnce]
    split
    · rename_i parts hparts
      have hmem : x ∈ l := by
        by_contra hno
        rw [ih.2 hno] at hparts
        cases hparts
      simp [hmem]
    · rename_i hnone
      split_ifs with heq
      · simp [heq]
      · simp [ih.1 hnone, Ne.symm heq]

theorem rsplitOnce_eq_some {x : α} {l before after : List α} (h : rsplitOnce x l = some (before, after)) :
    l = before ++ x :: after ∧ x ∉ after := by
  induction l generalizing before with
  | nil => cases h
  | cons a l ih =>
    simp only [rsplitOnce] at h
    split at h
    · rename_i parts hparts
      cases h
      obtain ⟨hl, hnot⟩ := ih hparts
      exact ⟨by rw [hl]; rfl, hnot⟩
    · rename_i hnone
      split_ifs at h with heq
      cases h
      exact ⟨by rw [heq]; rfl, rsplitOnce_eq_none.1 hnone⟩

/-- what is no separator is in a part -/
theorem mem_splitOn {x a : α} (l : List α) (ha : a ∈ l) (hne : a ≠ x) : ∃ part ∈ l.splitOn x, a ∈ part := by
  induction hlen : l.length using Nat.strong_induction_on generalizing l with
  | _ n ih =>
    by_cases hx : x ∈ l
    · obtain ⟨before, after, rfl, hbefore⟩ := List.eq_append_cons_of_mem hx
      rw [List.splitOn_append_cons_self_of_not_mem hbefore]
      rcases List.mem_append.1 ha with hmem | hmem
      · exact ⟨before, List.mem_cons_self, hmem⟩
      · have hlt : after.length < n := by
          rw [← hlen, List.length_append, List.length_cons]
          omega
        obtain ⟨part, hpart, ha'⟩ := ih _ hlt after ((List.mem_cons.1 hmem).resolve_left hne) rfl
        exact ⟨part, List.mem_cons_of_mem _ hpart, ha'⟩
    · exact ⟨l, by simp [List.splitOn_eq_singleton hx], ha⟩

end ServerBee.Lib
