/-
Samples that are counted in buckets of time.

A sample has a key and an instant; its bucket is the instant divided by the width. `upTo samples k b c` are the samples of
a key and a bucket that are older than `c`: what a row covers that was computed at `c`. A roll-up reads the samples of a
window and replaces the rows of the buckets that it finds there (`rollUp`). It covers a bucket when the window has all of
the bucket's samples (`rolled_eq_upTo`), and it may skip a bucket when no sample came since the row was computed (`upTo_congr`).
-/
import Mathlib.Tactic

namespace ServerBee.Lib.Buckets

variable {ρ κ β : Type} [DecidableEq κ]

/-- what is read of a sample, and the width of a bucket -/
structure Spec (ρ κ : Type) where
  key : ρ → κ
  time : ρ → ℤ
  width : ℤ

variable (S : Spec ρ κ)

def Spec.bucket (r : ρ) : ℤ := S.time r / S.width

/-- the samples of a key and a bucket -/
def Spec.all (samples : List ρ) (k : κ) (b : ℤ) : List ρ := samples.filter fun r => S.key r = k ∧ S.bucket r = b

/-- those that are older than `c` -/
def Spec.upTo (samples : List ρ) (k : κ) (b c : ℤ) : List ρ :=
  samples.filter fun r => (S.key r = k ∧ S.bucket r = b) ∧ S.time r < c

/-- those in the window from `a` to `c` -/
def Spec.rolled (samples : List ρ) (a c : ℤ) (k : κ) (b : ℤ) : List ρ :=
  (samples.filter fun r => a ≤ S.time r ∧ S.time r < c).filter fun r => S.key r = k ∧ S.bucket r = b

/-- the rows after a roll-up of the window, of which the statements of `done` were executed -/
def Spec.rollUp (samples : List ρ) (a c : ℤ) (done : κ → ℤ → Prop) [∀ k b, Decidable (done k b)]
    (row : List ρ → Option β → β) (rows : κ → ℤ → Option β) : κ → ℤ → Option β := fun k b =>
  if S.rolled samples a c k b ≠ [] ∧ done k b then some (row (S.rolled samples a c k b) (rows k b)) else rows k b

variable {S} {samples : List ρ} {k : κ} {a b c c' : ℤ}

theorem mem_upTo {r : ρ} : r ∈ S.upTo samples k b c ↔ r ∈ samples ∧ (S.key r = k ∧ S.bucket r = b) ∧ S.time r < c := by
  simp only [Spec.upTo, List.mem_filter, decide_eq_true_eq]

theorem mem_rolled {r : ρ} : r ∈ S.rolled samples a c k b ↔
    r ∈ samples ∧ (S.key r = k ∧ S.bucket r = b) ∧ a ≤ S.time r ∧ S.time r < c := by
  simp only [Spec.rolled, List.mem_filter, decide_eq_true_eq]
  tauto

/-- the window has every sample of the bucket -/
theorem rolled_eq_upTo (h : ∀ r ∈ samples, S.key r = k → S.bucket r = b → S.time r < c → a ≤ S.time r) :
    S.rolled samples a c k b = S.upTo samples k b c := by
  unfold Spec.rolled Spec.upTo
  rw [List.filter_filter]
  refine List.filter_congr fun r hr => ?_
  rw [← Bool.decide_and, decide_eq_decide]
  constructor
  · rintro ⟨hkey, -, htime⟩
    exact ⟨hkey, htime⟩
  · rintro ⟨hkey, htime⟩
    exact ⟨hkey, h r hr hkey.1 hkey.2 htime, htime⟩

/-- no sample came between the two instants -/
theorem upTo_congr (h : ∀ r ∈ samples, S.key r = k → S.bucket r = b → (S.time r < c ↔ S.time r < c')) :
    S.upTo samples k b c = S.upTo samples k b c' := by
  refine List.filter_congr fun r hr => ?_
  rw [decide_eq_decide]
  constructor
  · rintro ⟨hkey, htime⟩
    exact ⟨hkey, (h r hr hkey.1 hkey.2).1 htime⟩
  · rintro ⟨hkey, htime⟩
    exact ⟨hkey, (h r hr hkey.1 hkey.2).2 htime⟩

/-- a sample that comes later changes nothing -/
theorem upTo_append {r : ρ} (h : c ≤ S.time r) : S.upTo (samples ++ [r]) k b c = S.upTo samples k b c := by
  unfold Spec.upTo
  rw [List.filter_append, List.filter_cons_of_neg, List.filter_nil, List.append_nil]
  rw [decide_eq_true_eq]
  rintro ⟨-, hlt⟩
  omega

/-- a sample of another bucket changes nothing -/
theorem all_append {r : ρ} (h : S.bucket r ≠ b) : S.all (samples ++ [r]) k b = S.all samples k b := by
  unfold Spec.all
  rw [List.filter_append, List.filter_cons_of_neg, List.filter_nil, List.append_nil]
  rw [decide_eq_true_eq]
  rintro ⟨-, hb⟩
  exact h hb

omit [DecidableEq κ] in
theorem bucket_lt (hw : 0 < S.width) (r : ρ) : S.time r < (S.bucket r + 1) * S.width :=
  Int.lt_ediv_add_one_mul_self _ hw

/-- a window that is one bucket -/
theorem rolled_bucket (hw : 0 < S.width) (h : ℤ) :
    S.rolled samples (h * S.width) ((h + 1) * S.width) k b = if b = h then S.all samples k b else [] := by
  have hwindow (r : ρ) : (h * S.width ≤ S.time r ∧ S.time r < (h + 1) * S.width) ↔ S.bucket r = h := by
    unfold Spec.bucket
    rw [Int.ediv_eq_iff_of_pos hw, add_mul, one_mul]
  unfold Spec.rolled Spec.all
  rw [List.filter_filter]
  split_ifs with hb
  · refine List.filter_congr fun r _ => ?_
    rw [← Bool.decide_and, decide_eq_decide, hwindow, hb]
    constructor
    · rintro ⟨hkey, -⟩
      exact hkey
    · intro hkey
      exact ⟨hkey, hkey.2⟩
  · refine List.filter_eq_nil_iff.2 fun r _ => ?_
    rw [← Bool.decide_and, decide_eq_true_eq, hwindow]
    rintro ⟨hkey, hr⟩
    exact hb (hkey.2.symm.trans hr)

/-- after its end a bucket is covered -/
theorem upTo_eq_all (hw : 0 < S.width) (h : (b + 1) * S.width ≤ c) : S.upTo samples k b c = S.all samples k b := by
  refine List.filter_congr fun r _ => ?_
  rw [decide_eq_decide]
  constructor
  · rintro ⟨hkey, -⟩
    exact hkey
  · rintro ⟨hk, hb⟩
    refine ⟨⟨hk, hb⟩, ?_⟩
    have hlt := bucket_lt hw r
    rw [hb] at hlt
    omega

theorem upTo_sublist (h : c ≤ c') : (S.upTo samples k b c).Sublist (S.upTo samples k b c') := by
  have heq : S.upTo samples k b c = (S.upTo samples k b c').filter fun r => S.time r < c := by
    unfold Spec.upTo
    rw [List.filter_filter]
    refine List.filter_congr fun r _ => ?_
    rw [← Bool.decide_and, decide_eq_decide]
    constructor
    · rintro ⟨hkey, htime⟩
      exact ⟨htime, hkey, by omega⟩
    · rintro ⟨htime, hkey, -⟩
      exact ⟨hkey, htime⟩
  rw [heq]
  exact List.filter_sublist

end ServerBee.Lib.Buckets
