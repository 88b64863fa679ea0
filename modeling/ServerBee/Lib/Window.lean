/-
Sliding windows over timed items.

`expire` drops the items at the head of a queue that are older than a cutoff, `within` all that are older. On a queue in the
order of time they are the same, so a queue that is only ever expired at its head and extended at its end holds a window:
`watch`, which keeps such a queue, sees at each arrival what `windows` defines from the arrivals alone
(`watch_eq_windows`). Both start over when a measure of the window reaches a threshold.
-/
import Mathlib.Tactic

namespace ServerBee.Lib.Window

variable {α : Type}

abbrev Timed (α : Type) := ℕ × α

def expire (cutoff : ℕ) (q : List (Timed α)) : List (Timed α) := q.dropWhile fun e => decide (e.1 < cutoff)

def within (cutoff : ℕ) (q : List (Timed α)) : List (Timed α) := q.filter fun e => decide (cutoff ≤ e.1)

/-- in the order of time -/
def Ordered (q : List (Timed α)) : Prop := q.Pairwise fun e e' => e.1 ≤ e'.1

/-! ## Expiry at the head -/

theorem expire_eq_within {cutoff : ℕ} {q : List (Timed α)} (h : Ordered q) : expire cutoff q = within cutoff q := by
  induction q with
  | nil => rfl
  | cons e q ih =>
    obtain ⟨hle, hq⟩ := List.pairwise_cons.1 h
    by_cases he : e.1 < cutoff
    · rw [expire, within, List.dropWhile_cons_of_pos (by simpa using he), List.filter_cons_of_neg (by simpa using he)]
      exact ih hq
    · have hall : ∀ e' ∈ e :: q, decide (cutoff ≤ e'.1) = true := by
        intro e' he'
        rw [decide_eq_true_eq]
        rcases List.mem_cons.1 he' with rfl | he'
        · exact not_lt.1 he
        · exact (not_lt.1 he).trans (hle e' he')
      rw [expire, List.dropWhile_cons_of_neg (by simpa using he)]
      exact (List.filter_eq_self.2 hall).symm

theorem within_within {cutoff cutoff' : ℕ} (h : cutoff ≤ cutoff') (q : List (Timed α)) :
    within cutoff' (within cutoff q) = within cutoff' q := by
  rw [within, within, List.filter_filter]
  apply List.filter_congr
  intro e _
  rw [Bool.eq_iff_iff]
  simp only [Bool.and_eq_true, decide_eq_true_eq]
  omega

theorem Ordered.within {q : List (Timed α)} (h : Ordered q) (cutoff : ℕ) : Ordered (within cutoff q) :=
  List.Pairwise.filter _ h

/-- a window that is expired further is the later window -/
theorem expire_within {cutoff cutoff' : ℕ} {q : List (Timed α)} (h : cutoff ≤ cutoff') (hq : Ordered q) :
    expire cutoff' (within cutoff q) = within cutoff' q := by
  rw [expire_eq_within (hq.within cutoff), within_within h]

theorem within_append_now {cutoff now : ℕ} (h : cutoff ≤ now) (q : List (Timed α)) (a : α) :
    within cutoff (q ++ [(now, a)]) = within cutoff q ++ [(now, a)] := by
  simp [within, h]

/-- the items that a selection makes of a queue, with their times -/
def select {ω β : Type} (f : ω → Option β) (ops : List (Timed ω)) : List (Timed β) :=
  ops.filterMap fun e => (f e.2).map fun b => (e.1, b)

theorem Ordered.select {ω β : Type} {ops : List (Timed ω)} (h : Ordered ops) (f : ω → Option β) : Ordered (select f ops) := by
  refine List.Pairwise.filterMap _ ?_ h
  intro e e' hle b hb b' hb'
  obtain ⟨-, -, rfl⟩ := Option.map_eq_some_iff.1 hb
  obtain ⟨-, -, rfl⟩ := Option.map_eq_some_iff.1 hb'
  exact hle

theorem select_cons {ω β : Type} (f : ω → Option β) (now : ℕ) (op : ω) (ops : List (Timed ω)) :
    select f ((now, op) :: ops) = (f op).elim (select f ops) fun b => (now, b) :: select f ops := by
  unfold Window.select
  cases h : f op <;> simp [h]

/-! ## Watching a queue -/

/-- what happens to a queue -/
inductive Event (α : Type) where
  | arrive (a : α)
  | tidy

def Event.arrival : Event α → Option α
  | .arrive a => some a
  | .tidy => none

def arrivals (es : List (Timed (Event α))) : List (Timed α) := select Event.arrival es

theorem arrivals_select {ω : Type} (f : ω → Option (Event α)) (ops : List (Timed ω)) :
    arrivals (select f ops) = select (fun op => (f op).bind Event.arrival) ops := by
  induction ops with
  | nil => rfl
  | cons op ops ih =>
    obtain ⟨now, op⟩ := op
    rw [select_cons, select_cons, ← ih]
    cases f op with
    | none => rfl
    | some e => cases e <;> rfl

variable (window threshold : ℕ) (measure : List (Timed α) → ℕ)

/-- the queue at each arrival -/
def watch : List (Timed α) → List (Timed (Event α)) → List (List (Timed α))
  | _, [] => []
  | q, (now, .arrive a) :: es =>
    let q := expire (now - window) q ++ [(now, a)]
    q :: watch (if threshold ≤ measure q then [] else q) es
  | q, (now, .tidy) :: es => watch (expire (now - window) q) es

/-- the window at each arrival: the items since the last time that the measure reached the threshold, none older than
the window -/
def windows : List (Timed α) → List (Timed α) → List (List (Timed α))
  | _, [] => []
  | pending, (now, a) :: es =>
    let w := within (now - window) (pending ++ [(now, a)])
    w :: windows (if threshold ≤ measure w then [] else pending ++ [(now, a)]) es

theorem watch_within {cutoff : ℕ} {pending : List (Timed α)} {es : List (Timed (Event α))} (hp : Ordered pending)
    (hes : Ordered es) (hlater : ∀ e ∈ es, ∀ p ∈ pending, p.1 ≤ e.1) (hcut : ∀ e ∈ es, cutoff ≤ e.1 - window) :
    watch window threshold measure (within cutoff pending) es = windows window threshold measure pending (arrivals es) := by
  induction es generalizing cutoff pending with
  | nil => rfl
  | cons e es ih =>
    obtain ⟨now, e⟩ := e
    obtain ⟨hle, htail⟩ := List.pairwise_cons.1 hes
    have hcut' : ∀ e ∈ es, now - window ≤ e.1 - window := fun e he => Nat.sub_le_sub_right (hle e he) _
    have hexpire : expire (now - window) (within cutoff pending) = within (now - window) pending :=
      expire_within (hcut _ List.mem_cons_self) hp
    cases e with
    | tidy =>
      rw [watch, hexpire]
      exact ih hp htail (fun e he => hlater e (List.mem_cons_of_mem _ he)) hcut'
    | arrive a =>
      have hordered : Ordered (pending ++ [(now, a)]) := by
        refine List.pairwise_append.2 ⟨hp, List.pairwise_singleton _ _, fun p hpm e he => ?_⟩
        rw [List.mem_singleton.1 he]
        exact hlater _ List.mem_cons_self p hpm
      have hlater' : ∀ e ∈ es, ∀ p ∈ pending ++ [(now, a)], p.1 ≤ e.1 := by
        intro e he p hpm
        rcases List.mem_append.1 hpm with hpm | hpm
        · exact hlater e (List.mem_cons_of_mem _ he) p hpm
        · rw [List.mem_singleton.1 hpm]
          exact hle e he
      have hnow := within_append_now (Nat.sub_le now window) pending a
      rw [watch, hexpire, ← hnow]
      change _ = windows window threshold measure pending ((now, a) :: arrivals es)
      rw [windows]
      congr 1
      split_ifs
      · exact ih List.Pairwise.nil htail (fun _ _ p hpm => absurd hpm List.not_mem_nil) fun e _ => Nat.zero_le (e.1 - window)
      · exact ih hordered htail hlater' hcut'

/-- **Windows.** A queue that is expired at its head at every arrival, and at any other time, holds the window. -/
theorem watch_eq_windows {es : List (Timed (Event α))} (hes : Ordered es) :
    watch window threshold measure [] es = windows window threshold measure [] (arrivals es) :=
  watch_within window threshold measure List.Pairwise.nil hes (fun _ _ _ hp => absurd hp List.not_mem_nil)
    fun e _ => Nat.zero_le (e.1 - window)

end ServerBee.Lib.Window
