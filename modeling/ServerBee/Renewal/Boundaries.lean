/-
The boundary of a date, and the anchored date of a month.

The code looks for a boundary minute by minute. Over a lawful time zone what it finds is one nanosecond before the least
instant whose local time is past the date (`boundary_spec`), and the local date there is that date again
(`EndsAt.dateAt`). Counting the anchor day down until the date exists clamps it to the month (`anchoredDate_iff`).
-/
import ServerBee.Renewal.Model

namespace ServerBee.Renewal

open ServerBee.Lib ServerBee.Lib.Calendar

/-! ## The boundary of a date -/

theorem midnight_mod (d : Date) : minute ∣ midnight d := ⟨(d.dayNumber - unixEpoch) * 1440, by
  simp only [midnight, dayNanos, minute]
  ring⟩

/-- a date is the local date from its midnight to the next one -/
theorem dateAt_iff {l : ℤ} {d : Date} : dateAt l = d ↔ midnight d ≤ l ∧ l < midnight d + dayNanos := by
  have hn : dateAt l = d ↔ l / dayNanos + unixEpoch = d.dayNumber := by
    constructor
    · rintro rfl
      exact (Date.dayNumber_ofDayNumber _).symm
    · intro h
      exact Date.dayNumber_inj ((Date.dayNumber_ofDayNumber _).trans h)
  rw [hn]
  simp only [midnight, dayNanos, unixEpoch]
  omega

theorem succOpt_midnight {d next : Date} (h : succOpt d = some next) : midnight next = midnight d + dayNanos := by
  simp only [succOpt] at h
  split_ifs at h
  cases h
  simp only [midnight, Date.dayNumber_ofDayNumber]
  ring

theorem succOpt_none {d e : Date} (h : succOpt d = none) (hlt : d.monthIndex < e.monthIndex) : maxYear < e.year := by
  simp only [succOpt] at h
  split_ifs at h with hyear
  have hday := Date.dayNumber_lt hlt
  have hnext := Date.dayNumber_ofDayNumber (d.dayNumber + 1)
  have hmonth : (Date.ofDayNumber (d.dayNumber + 1)).monthIndex ≤ e.monthIndex := by
    by_contra hlow
    have := Date.dayNumber_lt (show e.monthIndex < (Date.ofDayNumber (d.dayNumber + 1)).monthIndex by omega)
    omega
  have h1 := e.monthIndex_year
  have h2 := (Date.ofDayNumber (d.dayNumber + 1)).monthIndex_year
  omega

section Boundary

variable {z : Zone}

/-- some minute of the date occurs -/
def Shown (z : Zone) (d : Date) : Prop := ∃ m : ℕ, m < 1440 ∧ ∃ u, z.clock u = midnight d + m * minute

/-- `v` is the last nanosecond of the date `d`: one before the least instant whose local time is past it -/
structure EndsAt (z : Zone) (d : Date) (v : ℤ) : Prop where
  shown : Shown z d
  inner : (succOpt d).isSome = true
  least : IsLeast {u | midnight d + dayNanos ≤ z.clock u} (v + 1)

theorem EndsAt.unique {d : Date} {v w : ℤ} (hv : EndsAt z d v) (hw : EndsAt z d w) : v = w := by
  have := hv.least.unique hw.least
  omega

theorem earliest_isSome (hz : z.Lawful dayNanos minute) (l : ℤ) :
    (z.earliest l).isSome = true ↔ ∃ u, z.clock u = l := by
  constructor
  · intro h
    obtain ⟨u, hu⟩ := Option.isSome_iff_exists.1 h
    exact ⟨u, ((hz.earliest_iff l u).1 hu).1⟩
  · rintro ⟨u, hu⟩
    have hbelow : ∀ v, z.clock v = l → l - dayNanos ≤ v := by
      intro v hv
      have := (hz.bounded v).2
      unfold Zone.clock at hv
      omega
    obtain ⟨b, hb, hleast⟩ := Int.exists_least_of_bdd ⟨l - dayNanos, hbelow⟩ ⟨u, hu⟩
    rw [(hz.earliest_iff l b).2 ⟨hb, fun v hv => hleast v hv⟩]
    rfl

theorem shown_iff (hz : z.Lawful dayNanos minute) (d : Date) :
    (List.range 1440).any (fun m : ℕ => (z.earliest (midnight d + m * minute)).isSome) = true ↔ Shown z d := by
  simp only [List.any_eq_true, List.mem_range, earliest_isSome hz, Shown]

theorem findSome_range {α : Type} {f : ℕ → Option α} {m n : ℕ} {a : α} (hm : m < n) (hbefore : ∀ k < m, f k = none)
    (ha : f m = some a) : (List.range n).findSome? f = some a := by
  obtain ⟨r, rfl⟩ := Nat.exists_eq_add_of_lt hm
  rw [show m + r + 1 = m + (r + 1) by omega, List.range_add, List.findSome?_append, List.findSome?_eq_none_iff.2
    fun k hk => hbefore k (List.mem_range.1 hk), List.range_succ_eq_map]
  simp [ha]

/-- the minute-by-minute search finds the first instant past midnight -/
theorem findMidnight (hz : z.Lawful dayNanos minute) {n u : ℤ} (hn : minute ∣ n)
    (hu : IsLeast {u | n ≤ z.clock u} u) :
    (List.range 1441).findSome? (fun m : ℕ => z.earliest (n + m * minute)) = some u := by
  -- `u` is the first instant with its own local time
  have hfirst : z.earliest (z.clock u) = some u := by
    refine (hz.earliest_iff _ _).2 ⟨rfl, fun v hv => hu.2 ?_⟩
    show n ≤ z.clock v
    rw [hv]
    exact hu.1
  rcases hz.first_cases hu with heq | ⟨hlt, hle, hdvd, hskip⟩
  · refine findSome_range (m := 0) (by omega) (fun k hk => (Nat.not_lt_zero k hk).elim) ?_
    rw [Nat.cast_zero, zero_mul, add_zero, ← heq]
    exact hfirst
  · -- the clock jumped over `n`, to a whole minute
    obtain ⟨q, hq⟩ := (Int.dvd_sub hdvd hn : minute ∣ z.clock u - n)
    have hqpos : 0 < q := by
      by_contra hneg
      have : minute * q ≤ 0 := Int.mul_nonpos_of_nonneg_of_nonpos (by decide) (by omega)
      omega
    have hqle : q ≤ 1440 := by
      unfold minute dayNanos at *
      omega
    refine findSome_range (m := q.toNat) (by omega) (fun k hk => ?_) ?_
    · rw [← Option.not_isSome_iff_eq_none, earliest_isSome hz]
      rintro ⟨v, hv⟩
      have hmin : (0 : ℤ) < minute := by decide
      have hk0 : 0 ≤ (k : ℤ) * minute := mul_nonneg (Int.natCast_nonneg k) hmin.le
      have hlow := hskip v (by omega)
      have hk' : (k : ℤ) < q := by omega
      have : (k : ℤ) * minute < q * minute := mul_lt_mul_of_pos_right hk' hmin
      rw [hv] at hlow
      rw [mul_comm] at hq
      omega
    · have hcast : (q.toNat : ℤ) = q := Int.toNat_of_nonneg hqpos.le
      rw [hcast, mul_comm, ← hq, add_sub_cancel]
      exact hfirst

/-- what the code's search for a boundary finds -/
theorem boundary_spec {C : Crates} {timezone : String} (hC : C.zone timezone = some z)
    (hz : z.Lawful dayNanos minute) (d : Date) :
    (∀ v, representableDateBoundary C d timezone = .ok (some v) ↔ EndsAt z d v) ∧
    (representableDateBoundary C d timezone = .ok none ↔ ¬ Shown z d) := by
  unfold representableDateBoundary
  rw [hC]
  simp only
  by_cases hs : Shown z d
  · rw [if_pos ((shown_iff hz d).2 hs)]
    cases hn : succOpt d with
    | none =>
      refine ⟨fun v => ⟨fun h => ?_, fun h => ?_⟩, by simp [hs]⟩
      · cases h
      · have := h.inner
        rw [hn] at this
        cases this
    | some next =>
      obtain ⟨u, hu⟩ := hz.exists_first (midnight next)
      simp only [findMidnight hz (midnight_mod next) hu]
      rw [succOpt_midnight hn] at hu
      refine ⟨fun v => ⟨fun h => ?_, fun h => ?_⟩, by simp [hs]⟩
      · cases h
        exact ⟨hs, by rw [hn]; rfl, by rwa [sub_add_cancel]⟩
      · have := h.least.unique hu
        simp only [Except.ok.injEq, Option.some.injEq]
        omega
  · rw [if_neg fun h => hs ((shown_iff hz d).1 h)]
    exact ⟨fun v => ⟨nofun, fun h => (hs h.shown).elim⟩, by simp [hs]⟩

/-- a date with a minute that occurs has a boundary, unless it is the last date there is -/
theorem boundary_error {C : Crates} {timezone : String} (hC : C.zone timezone = some z)
    (hz : z.Lawful dayNanos minute) {d : Date} {e : String} (h : representableDateBoundary C d timezone = .error e) :
    succOpt d = none := by
  obtain ⟨hsome, hnone⟩ := boundary_spec hC hz d
  by_contra hinner
  obtain ⟨u, hu⟩ := hz.exists_first (midnight d + dayNanos)
  have hshown : Shown z d := by
    by_contra hs
    rw [hnone.2 hs] at h
    cases h
  have hend : EndsAt z d (u - 1) := ⟨hshown, Option.isSome_iff_ne_none.2 hinner, by rwa [sub_add_cancel]⟩
  rw [(hsome _).2 hend] at h
  cases h

/-- the date of a boundary is the date it was made from -/
theorem EndsAt.dateAt (hz : z.Lawful dayNanos minute) {d : Date} {v : ℤ} (h : EndsAt z d v) :
    dateAt (z.clock v) = d := by
  have hlow : z.clock v < midnight d + dayNanos := by
    by_contra hle
    have := h.least.2 (show midnight d + dayNanos ≤ z.clock v by omega)
    omega
  refine dateAt_iff.2 ⟨?_, hlow⟩
  by_contra hbefore
  -- otherwise the clock jumped over the whole date, of which some minute occurs
  obtain ⟨m, hm, u, hu⟩ := h.shown
  have hm' : (m : ℤ) * minute < dayNanos := by
    unfold minute dayNanos
    omega
  have hm0 : 0 ≤ (m : ℤ) * minute := by
    unfold minute
    omega
  have hreach : midnight d + dayNanos ≤ z.clock (v + 1) := h.least.1
  refine hz.skipped (v + 1) u ?_ (by omega)
  rw [add_sub_cancel_right]
  unfold Zone.clock at hbefore hu ⊢
  omega

/-- a date is over once its local date is past -/
theorem EndsAt.lt_now {d : Date} {v now : ℤ} (h : EndsAt z d v)
    (hlt : d.dayNumber < (Renewal.dateAt (z.clock now)).dayNumber) : v < now := by
  have htoday := (dateAt_iff.1 (rfl : Renewal.dateAt (z.clock now) = _)).1
  have hpast : midnight d + dayNanos ≤ z.clock now := by
    have : (d.dayNumber + 1 - unixEpoch) * dayNanos ≤ midnight (Renewal.dateAt (z.clock now)) := by
      unfold midnight
      exact mul_le_mul_of_nonneg_right (by omega) (by decide)
    have hd : (d.dayNumber + 1 - unixEpoch) * dayNanos = midnight d + dayNanos := by
      unfold midnight
      ring
    omega
  have := h.least.2 hpast
  omega

end Boundary

/-! ## The anchored date of a month -/

theorem fromYmdOpt_iff {M : ℤ} {day : ℕ} {d : Date} :
    fromYmdOpt (M / 12) ((M % 12).toNat + 1) day = some d ↔
      (minYear ≤ d.year ∧ d.year ≤ maxYear) ∧ d.monthIndex = M ∧ d.day = day := by
  constructor
  · intro h
    obtain ⟨hyear, hmonth, hday, hmin, hmax⟩ := fromYmdOpt_year h
    refine ⟨by omega, ?_, hday⟩
    unfold Date.monthIndex
    omega
  · rintro ⟨hrange, rfl, rfl⟩
    rw [d.monthIndex_year, d.monthIndex_month]
    exact dif_pos ⟨hrange, ⟨d.month_pos, d.month_le⟩, d.day_pos, d.day_le⟩

/-- counting down from the anchor clamps it to the month -/
theorem anchoredDate_iff {M : ℤ} {anchor : ℕ} {d : Date} :
    anchoredDate M anchor = some d ↔
      (minYear ≤ d.year ∧ d.year ≤ maxYear) ∧ d.monthIndex = M ∧ d.day = min anchor (monthLength M) := by
  have hpos := d.day_pos
  induction anchor with
  | zero =>
    refine ⟨nofun, fun ⟨_, _, h⟩ => ?_⟩
    omega
  | succ day ih =>
    unfold anchoredDate
    cases hd : fromYmdOpt (M / 12) ((M % 12).toNat + 1) (day + 1) with
    | some date =>
      obtain ⟨hrange, hM, hday⟩ := fromYmdOpt_iff.1 hd
      have hle := date.day_le_length
      rw [hM] at hle
      simp only [Option.some.injEq]
      constructor
      · rintro rfl
        exact ⟨hrange, hM, by omega⟩
      · rintro ⟨-, hM', hday'⟩
        exact Date.ext_index (hM.trans hM'.symm) (by omega)
    | none =>
      refine Iff.trans ih (and_congr_right fun hrange => and_congr_right fun hM => ?_)
      -- the month is shorter than the day tried first
      have hshort : monthLength M ≤ day := by
        by_contra hlong
        have hsome := (fromYmdOpt_iff (M := M) (d := Date.ofIndex M (day + 1) (by omega) (by omega))).2
          ⟨by rwa [show (Date.ofIndex M (day + 1) _ _).year = d.year by rw [← d.monthIndex_year, hM]; rfl],
            Date.ofIndex_monthIndex _ _ _ _, rfl⟩
        rw [Date.ofIndex_day, hd] at hsome
        cases hsome
      omega

/-! ## UTC -/

def utc : Zone := ⟨fun _ => 0, some⟩

theorem utc_lawful : utc.Lawful dayNanos minute where
  bounded := fun _ => (by decide : -dayNanos < 0 ∧ 0 < dayNanos)
  aligned := fun _ h => (h rfl).elim
  forward := fun _ => (by decide : (0 : ℤ) - 0 ≤ dayNanos)
  skipped := fun u v h1 h2 => by
    simp only [utc, Zone.clock, add_zero] at h1 h2
    omega
  earliest_iff := fun l u => by
    simp only [utc, Zone.clock, add_zero, Option.some.injEq]
    constructor
    · rintro rfl
      exact ⟨rfl, fun v hv => (hv : v = l).ge⟩
    · intro h
      exact h.1.symm

def utcCrates : Crates := ⟨fun s => if s = "UTC" then some utc else none, fun _ => none, fun _ => ""⟩

end ServerBee.Renewal
