/-
Fixed windows: an event opens a window, and the first event after its end opens the next one.

`grouped` puts the events of each window together, `quota` admits the first `max` of them. Two windows that are not next to
each other are more than a window apart, so an interval of the length of a window meets at most two (`admitted_le`).
-/
import Mathlib.Tactic
import Mathlib.Data.List.TakeWhile

namespace ServerBee.Lib.Quota

variable (window : ℤ) (max : ℕ)

def grouped : List ℤ → List (List ℤ)
  | [] => []
  | t :: ts =>
    (t :: ts.takeWhile fun u => decide (u ≤ t + window)) :: grouped (ts.dropWhile fun u => decide (u ≤ t + window))
termination_by ts => ts.length
decreasing_by exact Nat.lt_succ_of_le (List.dropWhile_sublist _).length_le

/-- the first `max` events of a window -/
def admitted (group : List ℤ) : List Bool := (List.range group.length).map fun i => decide (i < max)

def quota (ts : List ℤ) : List Bool := (grouped window ts).flatMap (admitted max)

/-- how many events between two times are admitted -/
def admittedIn (x y : ℤ) (decided : List (ℤ × Bool)) : ℕ :=
  (decided.filter fun e => e.2 && decide (x ≤ e.1) && decide (e.1 ≤ y)).length

@[simp] theorem length_admitted (group : List ℤ) : (admitted max group).length = group.length := by
  simp [admitted]

theorem quota_cons (t : ℤ) (ts : List ℤ) : quota window max (t :: ts) =
    admitted max (t :: ts.takeWhile fun u => decide (u ≤ t + window)) ++
      quota window max (ts.dropWhile fun u => decide (u ≤ t + window)) := by
  rw [quota, grouped, List.flatMap_cons, quota]

/-! ## Admission in an interval -/

theorem admittedIn_append (x y : ℤ) (decided decided' : List (ℤ × Bool)) :
    admittedIn x y (decided ++ decided') = admittedIn x y decided + admittedIn x y decided' := by
  simp [admittedIn]

theorem admittedIn_eq_zero {x y : ℤ} {decided : List (ℤ × Bool)} (h : ∀ e ∈ decided, e.1 < x ∨ y < e.1) :
    admittedIn x y decided = 0 := by
  rw [admittedIn, List.length_eq_zero_iff, List.filter_eq_nil_iff]
  intro e he hin
  simp only [Bool.and_eq_true, decide_eq_true_eq] at hin
  rcases h e he with hlt | hlt
  · exact absurd hin.1.2 (not_le.2 hlt)
  · exact absurd hin.2 (not_le.2 hlt)

theorem admittedIn_group (x y : ℤ) (group : List ℤ) : admittedIn x y (group.zip (admitted max group)) ≤ max := by
  calc admittedIn x y (group.zip (admitted max group))
      ≤ ((group.zip (admitted max group)).filter fun e => e.2).length := by
        rw [admittedIn]
        apply List.Sublist.length_le
        apply List.monotone_filter_right
        intro e he
        simp only [Bool.and_eq_true] at he
        exact he.1.1
    _ = ((admitted max group).filter id).length := by
        have hsnd : (group.zip (admitted max group)).map Prod.snd = admitted max group :=
          List.map_snd_zip (length_admitted max group).le
        conv_rhs => rw [← hsnd, List.filter_map, List.length_map]
        rfl
    _ = ((List.range group.length).filter fun i => decide (i < max)).length := by
        rw [admitted, List.filter_map, List.length_map]
        rfl
    _ ≤ max := by
        have hsubset : ((List.range group.length).filter fun i => decide (i < max)) ⊆ List.range max := by
          intro i hi
          exact List.mem_range.2 (of_decide_eq_true (List.mem_filter.1 hi).2)
        exact ((List.nodup_range.filter _).subperm hsubset).length_le.trans List.length_range.le

/-- the first window and the events after it -/
theorem quota_split (hwindow : 0 ≤ window) {t : ℤ} {ts : List ℤ} (hsorted : (t :: ts).Pairwise (· ≤ ·)) :
    ∃ group rest, rest = ts.dropWhile (fun u => decide (u ≤ t + window)) ∧ t :: ts = group ++ rest ∧
      (t :: ts).zip (quota window max (t :: ts)) =
        group.zip (admitted max group) ++ rest.zip (quota window max rest) ∧
      (∀ u ∈ group, u ≤ t + window) ∧ (∀ u ∈ rest, t + window < u) ∧ rest.Pairwise (· ≤ ·) := by
  refine ⟨t :: ts.takeWhile fun u => decide (u ≤ t + window), _, rfl, ?_, ?_, ?_, ?_, ?_⟩
  · rw [List.cons_append, List.takeWhile_append_dropWhile]
  · rw [quota_cons, ← List.zip_append (length_admitted max _).symm, List.cons_append, List.takeWhile_append_dropWhile]
  · intro u hu
    rcases List.mem_cons.1 hu with rfl | hu
    · exact le_add_of_nonneg_right hwindow
    · have hle := List.mem_takeWhile_imp hu
      exact of_decide_eq_true hle
  · have hrest := (List.pairwise_cons.1 hsorted).2.sublist (List.dropWhile_sublist fun u => decide (u ≤ t + window))
    have hhead := List.head?_dropWhile_not (fun u => decide (u ≤ t + window)) ts
    intro u hu
    generalize ts.dropWhile (fun u => decide (u ≤ t + window)) = rest at hrest hhead hu
    cases rest with
    | nil => cases hu
    | cons v vs =>
      have hv : t + window < v := not_le.1 (of_decide_eq_false hhead)
      rcases List.mem_cons.1 hu with rfl | hu
      · exact hv
      · exact hv.trans_le ((List.pairwise_cons.1 hrest).1 u hu)
  · exact (List.pairwise_cons.1 hsorted).2.sublist (List.dropWhile_sublist _)

/-- **Two windows.** An interval of the length of a window has at most twice the quota. -/
theorem admitted_le (hwindow : 0 ≤ window) {ts : List ℤ} (hsorted : ts.Pairwise (· ≤ ·)) (x : ℤ) :
    admittedIn x (x + window) (ts.zip (quota window max ts)) ≤ 2 * max := by
  induction ts using grouped.induct window with
  | case1 => exact Nat.zero_le _
  | case2 t ts ih =>
    obtain ⟨group, rest, hrest, -, hzip, hgroup, hlater, hrestSorted⟩ := quota_split window max hwindow hsorted
    rw [hzip, admittedIn_append]
    by_cases hx : t + window < x
    · -- the window is over before the interval begins
      have hzero : admittedIn x (x + window) (group.zip (admitted max group)) = 0 := by
        apply admittedIn_eq_zero
        intro e he
        exact Or.inl ((hgroup e.1 (List.of_mem_zip he).1).trans_lt hx)
      rw [hzero, zero_add, hrest]
      exact ih (hrest ▸ hrestSorted)
    · have hfirst := admittedIn_group max x (x + window) group
      suffices hsecond : admittedIn x (x + window) (rest.zip (quota window max rest)) ≤ max by omega
      cases rest with
      | nil => exact Nat.zero_le _
      | cons v vs =>
        obtain ⟨group', rest', -, -, hzip', -, hlater', -⟩ := quota_split window max hwindow hrestSorted
        have hv := hlater v List.mem_cons_self
        have hzero : admittedIn x (x + window) (rest'.zip (quota window max rest')) = 0 := by
          apply admittedIn_eq_zero
          intro e he
          have hafter := hlater' e.1 (List.of_mem_zip he).1
          exact Or.inr (by omega)
        rw [hzip', admittedIn_append, hzero, add_zero]
        exact admittedIn_group max x (x + window) group'

end ServerBee.Lib.Quota
