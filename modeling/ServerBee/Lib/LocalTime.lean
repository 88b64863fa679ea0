/-
Local time over a time line.

A zone is an offset for every instant, so `local u = u + offset u`; the offset may change at any instant. `earliest l` is
the first instant with local time `l`, if there is one. `Lawful step` says that the clock is only ever set to a multiple
of `step`, by at most a day forward, and that a local time that a forward change skips occurs at no instant at all.

The local time line may run backwards, but it still passes every local time `n` for a first time: `firstAt n`, the least
instant whose local time is not before `n`. Where the clock is set forward over `n`, it is the instant of the change, and
the local time there is the first one after `n` that exists.
-/
import Mathlib.Tactic

namespace ServerBee.Lib

structure Zone where
  offset : ℤ → ℤ
  earliest : ℤ → Option ℤ

/-- the local time at an instant -/
def Zone.clock (z : Zone) (u : ℤ) : ℤ := u + z.offset u

/-- what a database of civil time zones promises; `day` and `step` are in the unit of the time line -/
structure Zone.Lawful (z : Zone) (day step : ℤ) : Prop where
  bounded : ∀ u, -day < z.offset u ∧ z.offset u < day
  aligned : ∀ u, z.offset (u - 1) ≠ z.offset u → step ∣ z.clock u
  forward : ∀ u, z.offset u - z.offset (u - 1) ≤ day
  skipped : ∀ u v, u + z.offset (u - 1) ≤ z.clock v → z.clock v < z.clock u → False
  earliest_iff : ∀ l u, z.earliest l = some u ↔ IsLeast {v | z.clock v = l} u

namespace Zone

variable {z : Zone} {day step : ℤ}

theorem Lawful.exists_first (h : z.Lawful day step) (n : ℤ) : ∃ u, IsLeast {u | n ≤ z.clock u} u := by
  -- bounded below by n - day, and not empty
  have hbelow : ∀ u, n ≤ z.clock u → n - day ≤ u := by
    intro u hu
    have := (h.bounded u).2
    unfold clock at hu
    omega
  have hsome : n ≤ z.clock (n + day) := by
    have := (h.bounded (n + day)).1
    unfold clock
    omega
  obtain ⟨u, hu, hleast⟩ := Int.exists_least_of_bdd ⟨n - day, hbelow⟩ ⟨n + day, hsome⟩
  exact ⟨u, hu, hleast⟩

/-- the first instant at which the clock has reached `n` shows `n`, or the first local time after `n` that exists -/
theorem Lawful.first_cases (h : z.Lawful day step) {n u : ℤ} (hu : IsLeast {u | n ≤ z.clock u} u) :
    z.clock u = n ∨ (n < z.clock u ∧ z.clock u ≤ n + day ∧ step ∣ z.clock u ∧
      ∀ v, n ≤ z.clock v → z.clock u ≤ z.clock v) := by
  have hn : n ≤ z.clock u := hu.1
  have hbefore : z.clock (u - 1) < n := by
    by_contra hle
    have := hu.2 (show n ≤ z.clock (u - 1) by omega)
    omega
  rcases hn.eq_or_lt with heq | hlt
  · exact Or.inl heq.symm
  · right
    have hjump := h.forward u
    have hchange : z.offset (u - 1) ≠ z.offset u := by
      intro he
      unfold clock at hlt hbefore
      omega
    refine ⟨hlt, ?_, h.aligned u hchange, ?_⟩
    · unfold clock at hlt hbefore ⊢
      omega
    · intro v hv
      by_contra hlow
      refine h.skipped u v ?_ (by omega)
      unfold clock at hbefore hv ⊢
      omega

end Zone

/-! ## Reports of local times -/

/-- what a time zone library reports of a local time: the instants that show it, at most two -/
inductive LocalResult where
  | none
  | single (u : ℤ)
  | ambiguous (earliest latest : ℤ)
deriving DecidableEq, Repr

namespace LocalResult

def earliest : LocalResult → Option ℤ
  | .none => Option.none
  | .single u => some u
  | .ambiguous u _ => some u

def latest : LocalResult → Option ℤ
  | .none => Option.none
  | .single u => some u
  | .ambiguous _ u => some u

/-- the report is true of the instants `S` -/
def Reports (S : Set ℤ) : LocalResult → Prop
  | .none => S = ∅
  | .single u => S = {u}
  | .ambiguous u v => u < v ∧ IsLeast S u ∧ IsGreatest S v

variable {S : Set ℤ} {r : LocalResult}

theorem Reports.earliest (h : Reports S r) (u : ℤ) : r.earliest = some u ↔ IsLeast S u := by
  cases r with
  | none =>
    rw [show S = ∅ from h]
    simp [LocalResult.earliest, IsLeast]
  | single v =>
    rw [show S = {v} from h]
    simp only [LocalResult.earliest, Option.some.injEq]
    exact ⟨fun hv => hv ▸ isLeast_singleton, fun hu => isLeast_singleton.unique hu⟩
  | ambiguous v w =>
    simp only [LocalResult.earliest, Option.some.injEq]
    exact ⟨fun hv => hv ▸ h.2.1, fun hu => h.2.1.unique hu⟩

theorem Reports.latest (h : Reports S r) (u : ℤ) : r.latest = some u ↔ IsGreatest S u := by
  cases r with
  | none =>
    rw [show S = ∅ from h]
    simp [LocalResult.latest, IsGreatest]
  | single v =>
    rw [show S = {v} from h]
    simp only [LocalResult.latest, Option.some.injEq]
    exact ⟨fun hv => hv ▸ isGreatest_singleton, fun hu => isGreatest_singleton.unique hu⟩
  | ambiguous v w =>
    simp only [LocalResult.latest, Option.some.injEq]
    exact ⟨fun hv => hv ▸ h.2.2, fun hu => h.2.2.unique hu⟩

end LocalResult

/-- a clock that may be set forward and back, and its reports; local time is less than a day from the time line's -/
structure LocalMap (day : ℤ) where
  clock : ℤ → ℤ
  fromLocal : ℤ → LocalResult
  bounded : ∀ u, u - day < clock u ∧ clock u < u + day
  reports : ∀ l, (fromLocal l).Reports {u | clock u = l}

end ServerBee.Lib
