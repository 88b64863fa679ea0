/-
Renewal catch-up is path independent (`RenewalState::advance`).

The loop of `advance` starts from an estimate of the number of cycles, and each call derives the anchored date anew from
the stored instant. The estimate passes over no boundary that is still to come (`before_firstPeriods`), so a call finds
the least number of cycles whose boundary is not before `now` (`advance_least`). The date of an occurrence is again a date
from which to count, so least numbers compose (`LeastCycles.compose`), and so do calls (`CaughtUp.trans`).
-/
import ServerBee.Renewal.Boundaries

namespace ServerBee.Renewal

open ServerBee.Lib ServerBee.Lib.Calendar

/-! ## The occurrences of a schedule -/

/-- `v` is the boundary `k` cycles after the month of `date`: the end of the anchored date of that month, or the original
deadline when `k = 0` -/
def Occurs (z : Zone) (date : Date) (anchor interval : ℕ) (original : ℤ) (k : ℕ) (v : ℤ) : Prop :=
  if k = 0 then v = original
  else ∃ d : Date, (minYear ≤ d.year ∧ d.year ≤ maxYear) ∧ d.monthIndex = date.monthIndex + k * interval ∧
    d.day = min anchor (monthLength d.monthIndex) ∧ EndsAt z d v

section Occurrences

variable {z : Zone} {date : Date} {anchor interval : ℕ} {original : ℤ}

theorem occurs_zero {v : ℤ} : Occurs z date anchor interval original 0 v ↔ v = original := Iff.rfl

theorem occurs_pos {k : ℕ} {v : ℤ} (hk : 0 < k) : Occurs z date anchor interval original k v ↔
    ∃ d, anchoredDate (date.monthIndex + k * interval) anchor = some d ∧ EndsAt z d v := by
  unfold Occurs
  rw [if_neg (by omega)]
  constructor
  · rintro ⟨d, hrange, hM, hday, hend⟩
    exact ⟨d, anchoredDate_iff.2 ⟨hrange, hM, hM ▸ hday⟩, hend⟩
  · rintro ⟨d, hd, hend⟩
    obtain ⟨hrange, hM, hday⟩ := anchoredDate_iff.1 hd
    exact ⟨d, hrange, hM, hM ▸ hday, hend⟩

theorem Occurs.unique {k : ℕ} {v w : ℤ} (hv : Occurs z date anchor interval original k v)
    (hw : Occurs z date anchor interval original k w) : v = w := by
  rcases Nat.eq_zero_or_pos k with rfl | hk
  · exact hv.trans hw.symm
  · obtain ⟨d, hd, hv⟩ := (occurs_pos hk).1 hv
    obtain ⟨e, he, hw⟩ := (occurs_pos hk).1 hw
    rw [hd] at he
    cases he
    exact hv.unique hw

/-- the local date of an occurrence lies in its month -/
theorem Occurs.localDate (hz : z.Lawful dayNanos minute) (h0 : EndsAt z date original) {k : ℕ} {v : ℤ}
    (h : Occurs z date anchor interval original k v) :
    EndsAt z (dateAt (z.clock v)) v ∧ (dateAt (z.clock v)).monthIndex = date.monthIndex + k * interval := by
  rcases Nat.eq_zero_or_pos k with rfl | hk
  · rw [occurs_zero] at h
    subst h
    rw [h0.dateAt hz]
    exact ⟨h0, by simp⟩
  · obtain ⟨d, hd, hend⟩ := (occurs_pos hk).1 h
    rw [hend.dateAt hz]
    exact ⟨hend, (anchoredDate_iff.1 hd).2.1⟩

/-- the occurrences counted from a later one -/
theorem Occurs.shift (hz : z.Lawful dayNanos minute) (h0 : EndsAt z date original) {k : ℕ} {v : ℤ}
    (h : Occurs z date anchor interval original k v) (j : ℕ) (w : ℤ) :
    Occurs z (dateAt (z.clock v)) anchor interval v j w ↔ Occurs z date anchor interval original (k + j) w := by
  rcases Nat.eq_zero_or_pos j with rfl | hj
  · rw [occurs_zero, add_zero]
    exact ⟨fun he => he ▸ h, fun hw => hw.unique h⟩
  · rw [occurs_pos hj, occurs_pos (by omega), (h.localDate hz h0).2]
    push_cast
    rw [add_mul, add_assoc]

/-- the least number of cycles whose boundary is not before `now` -/
def LeastCycles (z : Zone) (date : Date) (anchor interval : ℕ) (original now : ℤ) (k : ℕ) : Prop :=
  IsLeast {k | ∃ v, Occurs z date anchor interval original k v ∧ now ≤ v} k

/-- least numbers of cycles compose -/
theorem LeastCycles.compose (hz : z.Lawful dayNanos minute) (h0 : EndsAt z date original) {now later : ℤ}
    (hle : now ≤ later) {k j : ℕ} {v : ℤ} (hk : LeastCycles z date anchor interval original now k)
    (hv : Occurs z date anchor interval original k v)
    (hj : LeastCycles z (dateAt (z.clock v)) anchor interval v later j) :
    LeastCycles z date anchor interval original later (k + j) := by
  obtain ⟨⟨w, hw, hlw⟩, hleast⟩ := hj
  refine ⟨⟨w, (hv.shift hz h0 j w).1 hw, hlw⟩, ?_⟩
  rintro i ⟨x, hx, hlx⟩
  have hki : k ≤ i := hk.2 ⟨x, hx, hle.trans hlx⟩
  obtain ⟨r, rfl⟩ := Nat.exists_eq_add_of_le hki
  have := hleast ⟨x, (hv.shift hz h0 r x).2 hx, hlx⟩
  omega

end Occurrences

/-! ## The loop -/

section Loop

variable {C : Crates} {z : Zone} {timezone : String} {date : Date} {anchor : ℕ} {cycle : Cycle} {original now : ℤ}

/-- what the loop returns is the first boundary not before `now` from `periods` on -/
theorem search_ok (hC : C.zone timezone = some z) (hz : z.Lawful dayNanos minute) {periods : ℕ} (hp : 0 < periods)
    {v : ℤ} (h : search C timezone date anchor cycle now periods = .ok v) :
    ∃ k, periods ≤ k ∧ Occurs z date anchor cycle.interval original k v ∧ now ≤ v ∧
      ∀ j, periods ≤ j → j < k → ∀ w, Occurs z date anchor cycle.interval original j w → w < now := by
  fun_induction search C timezone date anchor cycle now periods with
  | case1 periods hnone => cases h
  | case2 periods candidate hsome e he => cases h
  | case3 periods candidate hsome he ih =>
    obtain ⟨k, hk, hocc, hnow, hbefore⟩ := ih (by omega) h
    refine ⟨k, by omega, hocc, hnow, fun j hj hjk w hw => ?_⟩
    rcases hj.eq_or_lt with rfl | hlt
    · obtain ⟨d, hd, hend⟩ := (occurs_pos hp).1 hw
      rw [hsome] at hd
      cases hd
      exact absurd hend.shown ((boundary_spec hC hz candidate).2.1 he)
    · exact hbefore j hlt hjk w hw
  | case4 periods candidate hsome boundary he hle =>
    cases h
    have hend := ((boundary_spec hC hz candidate).1 _).1 he
    exact ⟨periods, le_rfl, (occurs_pos hp).2 ⟨candidate, hsome, hend⟩, hle, fun j hj hjk => by omega⟩
  | case5 periods candidate hsome boundary he hlt ih =>
    have hend := ((boundary_spec hC hz candidate).1 boundary).1 he
    obtain ⟨k, hk, hocc, hnow, hbefore⟩ := ih (by omega) h
    refine ⟨k, by omega, hocc, hnow, fun j hj hjk w hw => ?_⟩
    rcases hj.eq_or_lt with rfl | hlt'
    · have := hw.unique ((occurs_pos hp).2 ⟨candidate, hsome, hend⟩)
      omega
    · exact hbefore j hlt' hjk w hw

/-- once a month has no representable date, no later one has -/
theorem anchoredDate_none {M N : ℤ} (h : anchoredDate M anchor = none) (hmin : 12 * minYear ≤ M) (hle : M ≤ N)
    {d : Date} : anchoredDate N anchor ≠ some d := by
  intro hd
  obtain ⟨hrange, hN, hday⟩ := anchoredDate_iff.1 hd
  have hyear := d.monthIndex_year
  have hpos := d.day_pos
  have hlen := (monthLength_bounds M).1
  have hsome : anchoredDate M anchor =
      some (Date.ofIndex M (min anchor (monthLength M)) (by omega) (min_le_right _ _)) := anchoredDate_iff.2
    ⟨by
      rw [← Date.monthIndex_year, Date.ofIndex_monthIndex]
      unfold minYear maxYear at *
      omega, Date.ofIndex_monthIndex _ _ _ _, rfl⟩
  rw [h] at hsome
  cases hsome

/-- the loop returns when some boundary is not before `now` -/
theorem search_returns (hC : C.zone timezone = some z) (hz : z.Lawful dayNanos minute) {periods : ℕ}
    (hp : 0 < periods) (hmin : 12 * minYear ≤ date.monthIndex) {k : ℕ} (hk : periods ≤ k) {v : ℤ}
    (hv : Occurs z date anchor cycle.interval original k v) (hnow : now ≤ v) :
    ∃ w, search C timezone date anchor cycle now periods = .ok w := by
  obtain ⟨d, hd, hend⟩ := (occurs_pos (by omega)).1 hv
  fun_induction search C timezone date anchor cycle now periods with
  | case1 periods hnone =>
    have hle : (periods : ℤ) * cycle.interval ≤ k * cycle.interval :=
      mul_le_mul_of_nonneg_right (by omega) (Int.natCast_nonneg _)
    have hmul : 0 ≤ (periods : ℤ) * cycle.interval := by positivity
    exact absurd hd (anchoredDate_none hnone (by omega) (by omega))
  | case2 periods candidate hsome e he =>
    rcases hk.eq_or_lt with rfl | hlt
    · rw [hsome] at hd
      cases hd
      rw [((boundary_spec hC hz d).1 v).2 hend] at he
      cases he
    · have hlast := boundary_error hC hz he
      have hstep : (periods : ℤ) * cycle.interval < k * cycle.interval :=
        mul_lt_mul_of_pos_right (by omega) (by exact_mod_cast cycle.interval_pos)
      obtain ⟨hrange, hM, -⟩ := anchoredDate_iff.1 hd
      have := succOpt_none hlast (e := d) (by rw [(anchoredDate_iff.1 hsome).2.1, hM]; omega)
      omega
  | case3 periods candidate hsome he ih =>
    rcases hk.eq_or_lt with rfl | hlt
    · rw [hsome] at hd
      cases hd
      exact absurd hend.shown ((boundary_spec hC hz d).2.1 he)
    · exact ih (by omega) hlt
  | case4 periods candidate hsome boundary he hle => exact ⟨boundary, rfl⟩
  | case5 periods candidate hsome boundary he hlt ih =>
    rcases hk.eq_or_lt with rfl | hlt'
    · rw [hsome] at hd
      cases hd
      have := hend.unique (((boundary_spec hC hz d).1 boundary).1 he)
      omega
    · exact ih (by omega) hlt'

end Loop

/-! ## One call -/

/-- the estimate from which the loop of `advance` starts -/
def firstPeriods (difference : ℤ) (interval : ℕ) : ℕ := (max (difference.tdiv interval) 1).toNat

theorem firstPeriods_pos (difference : ℤ) (interval : ℕ) : 0 < firstPeriods difference interval := by
  unfold firstPeriods
  omega

/-- the estimate does not pass over a boundary that is not before `now` -/
theorem before_firstPeriods {z : Zone} {date : Date} {anchor interval : ℕ} {original now v : ℤ} {k : ℕ} (hk : 0 < k)
    (hi : 0 < interval) (hlt : k < firstPeriods ((dateAt (z.clock now)).monthIndex - date.monthIndex) interval)
    (h : Occurs z date anchor interval original k v) : v < now := by
  obtain ⟨d, hd, hend⟩ := (occurs_pos hk).1 h
  refine hend.lt_now (Date.dayNumber_lt ?_)
  rw [(anchoredDate_iff.1 hd).2.1]
  set difference := (dateAt (z.clock now)).monthIndex - date.monthIndex with hdiff
  have hquot : (k : ℤ) + 1 ≤ difference.tdiv interval := by
    unfold firstPeriods at hlt
    omega
  have hpos : 0 ≤ difference := by
    by_contra hneg
    have hneg' : 0 ≤ (-difference).tdiv interval := Int.tdiv_nonneg (by omega) (Int.natCast_nonneg _)
    rw [Int.neg_tdiv] at hneg'
    omega
  rw [Int.tdiv_eq_ediv_of_nonneg hpos, Int.le_ediv_iff_mul_le (by exact_mod_cast hi), add_mul, one_mul] at hquot
  have : (0 : ℤ) < interval := by exact_mod_cast hi
  omega

/-- what a call leaves of the state -/
structure Follows (s s' : RenewalState) (anchor : ℕ) : Prop where
  enabled : s'.enabled = s.enabled
  timezone : s'.billingTimezone = s.billingTimezone
  confirmed : s'.confirmedExpiredAt = s.confirmedExpiredAt
  anchor : s'.anchorDay = some anchor
  occurrence : s'.occurrenceId.isSome = true

section Call

variable {C : Crates} {z : Zone} {s : RenewalState} {date : Date} {cycle : String} {c : Cycle} {original now : ℤ}
  {fresh : ℕ}

theorem advance_eq (hC : C.zone s.billingTimezone = some z) (hz : z.Lawful dayNanos minute) (hen : s.enabled = true)
    (hc : Cycle.parse cycle = some c) (h0 : EndsAt z date original) :
    advance C fresh s (some original) (some cycle) now =
      if now ≤ original then
        .ok ⟨{ s with anchorDay := some (s.anchorDay.getD date.day), occurrenceId := some (s.occurrenceId.getD fresh) },
          some original, false⟩
      else
        match search C s.billingTimezone date (s.anchorDay.getD date.day) c now
          (firstPeriods ((dateAt (z.clock now)).monthIndex - date.monthIndex) c.interval) with
        | .error e => .error e
        | .ok boundary =>
          .ok ⟨{ s with
            deadlineOrigin := .projected
            anchorDay := some (s.anchorDay.getD date.day)
            occurrenceId := some (fresh + 1) }, some boundary, true⟩ := by
  have hval : validateEnabled s (some original) (some cycle) = .ok () := by simp [validateEnabled, hc]
  have hdate : selectedDate C (some original) s.billingTimezone = some date := by
    simp [selectedDate, hC, h0.dateAt hz]
  have htoday : selectedDate C (some now) s.billingTimezone = some (dateAt (z.clock now)) := by
    simp [selectedDate, hC]
  unfold advance
  rw [if_neg (by simp [hen]), hval]
  by_cases hle : now ≤ original
  · simp only [Option.bind_some, hc, hdate, htoday, if_pos hle]
  · cases hsearch : search C s.billingTimezone date (s.anchorDay.getD date.day) c now
      (max (((dateAt (z.clock now)).monthIndex - date.monthIndex).tdiv c.interval) 1).toNat with
    | error e => simp only [Option.bind_some, hc, hdate, htoday, if_neg hle, firstPeriods, hsearch]
    | ok boundary => simp only [Option.bind_some, hc, hdate, htoday, if_neg hle, firstPeriods, hsearch]

/-- a call moves the deadline to the least occurrence that is not before `now` -/
theorem advance_least (hC : C.zone s.billingTimezone = some z) (hz : z.Lawful dayNanos minute)
    (hen : s.enabled = true) (hc : Cycle.parse cycle = some c) (h0 : EndsAt z date original) {r : Advanced}
    (h : advance C fresh s (some original) (some cycle) now = .ok r) :
    ∃ k v, LeastCycles z date (s.anchorDay.getD date.day) c.interval original now k ∧
      Occurs z date (s.anchorDay.getD date.day) c.interval original k v ∧ now ≤ v ∧ r.deadline = some v ∧
      Follows s r.state (s.anchorDay.getD date.day) := by
  rw [advance_eq hC hz hen hc h0] at h
  split_ifs at h with hle
  · cases h
    exact ⟨0, original, ⟨⟨original, rfl, hle⟩, fun k _ => Nat.zero_le k⟩, rfl, hle, rfl, rfl, rfl, rfl, rfl, rfl⟩
  · split at h
    · cases h
    · rename_i boundary hsearch
      cases h
      obtain ⟨k, hk, hocc, hnow, hbefore⟩ := search_ok hC hz (firstPeriods_pos _ _) hsearch
      refine ⟨k, boundary, ⟨⟨boundary, hocc, hnow⟩, ?_⟩, hocc, hnow, rfl, rfl, rfl, rfl, rfl, rfl⟩
      rintro j ⟨w, hw, hlw⟩
      by_contra hjk
      rcases Nat.eq_zero_or_pos j with rfl | hj
      · rw [occurs_zero] at hw
        omega
      · have hwlt : w < now := by
          rcases Nat.lt_or_ge j (firstPeriods ((dateAt (z.clock now)).monthIndex - date.monthIndex) c.interval) with
            hlow | hhigh
          · exact before_firstPeriods hj c.interval_pos hlow hw
          · exact hbefore j hhigh (by omega) w hw
        omega

/-- a call returns when some occurrence is not before `now` -/
theorem advance_returns (hC : C.zone s.billingTimezone = some z) (hz : z.Lawful dayNanos minute)
    (hen : s.enabled = true) (hc : Cycle.parse cycle = some c) (h0 : EndsAt z date original)
    (hmin : minYear ≤ date.year) {k : ℕ} {v : ℤ}
    (hv : Occurs z date (s.anchorDay.getD date.day) c.interval original k v) (hnow : now ≤ v) :
    ∃ r, advance C fresh s (some original) (some cycle) now = .ok r := by
  rw [advance_eq hC hz hen hc h0]
  split_ifs with hle
  · exact ⟨_, rfl⟩
  · have hk : 0 < k := by
      rcases Nat.eq_zero_or_pos k with rfl | hk
      · rw [occurs_zero] at hv
        omega
      · exact hk
    have hge : firstPeriods ((dateAt (z.clock now)).monthIndex - date.monthIndex) c.interval ≤ k := by
      by_contra hlow
      have : v < now := before_firstPeriods hk c.interval_pos (by omega) hv
      omega
    have hM := date.monthIndex_year
    obtain ⟨w, hw⟩ := search_returns hC hz (firstPeriods_pos _ _) (by omega) hge hv hnow
    rw [hw]
    exact ⟨_, rfl⟩

end Call

/-! ## Any number of calls -/

/-- one call, on the state and the deadline -/
def tick (C : Crates) (cycle : String) (x : RenewalState × Option ℤ) (t : ℕ × ℤ) : Except String (RenewalState × Option ℤ) :=
  (advance C t.1 x.1 x.2 (some cycle) t.2).map fun r => (r.state, r.deadline)

/-- calls one after the other; each comes with the ids it draws and its instant -/
def catchUp (C : Crates) (cycle : String) (x : RenewalState × Option ℤ) (ticks : List (ℕ × ℤ)) :
    Except String (RenewalState × Option ℤ) := ticks.foldlM (tick C cycle) x

/-- deadline, anchor and confirmed deadline -/
def view (x : RenewalState × Option ℤ) : Option ℤ × Option ℕ × Option ℤ :=
  (x.2, x.1.anchorDay, x.1.confirmedExpiredAt)

/-- an enabled schedule whose deadline is the end of a date -/
structure Scheduled (C : Crates) (z : Zone) (s : RenewalState) (date : Date) (original : ℤ) : Prop where
  zone : C.zone s.billingTimezone = some z
  enabled : s.enabled = true
  ends : EndsAt z date original
  inRange : minYear ≤ date.year

/-- the schedule after catch-up, `k` cycles on -/
structure CaughtUp (z : Zone) (c : Cycle) (s : RenewalState) (date : Date) (original now : ℤ)
    (x : RenewalState × Option ℤ) (k : ℕ) (v : ℤ) : Prop where
  least : LeastCycles z date (s.anchorDay.getD date.day) c.interval original now k
  occurs : Occurs z date (s.anchorDay.getD date.day) c.interval original k v
  reached : now ≤ v
  deadline : x.2 = some v
  follows : Follows s x.1 (s.anchorDay.getD date.day)

section Run

variable {C : Crates} {z : Zone} {cycle : String} {c : Cycle} {s : RenewalState} {date : Date} {original now : ℤ}

theorem tick_ok {x y : RenewalState × Option ℤ} {t : ℕ × ℤ} (h : tick C cycle x t = .ok y) :
    ∃ r, advance C t.1 x.1 x.2 (some cycle) t.2 = .ok r ∧ y = (r.state, r.deadline) := by
  unfold tick at h
  cases hr : advance C t.1 x.1 x.2 (some cycle) t.2 with
  | error e =>
    rw [hr] at h
    cases h
  | ok r =>
    rw [hr] at h
    cases h
    exact ⟨r, rfl, rfl⟩

theorem tick_caughtUp (hz : z.Lawful dayNanos minute) (hc : Cycle.parse cycle = some c)
    (hs : Scheduled C z s date original) {fresh : ℕ} {y : RenewalState × Option ℤ}
    (h : tick C cycle (s, some original) (fresh, now) = .ok y) : ∃ k v, CaughtUp z c s date original now y k v := by
  obtain ⟨r, hr, rfl⟩ := tick_ok h
  obtain ⟨k, v, hleast, hocc, hnow, hdeadline, hfollows⟩ := advance_least hs.zone hz hs.enabled hc hs.ends hr
  exact ⟨k, v, hleast, hocc, hnow, hdeadline, hfollows⟩

/-- the schedule that a call leaves is a schedule again, with the same anchor -/
theorem CaughtUp.scheduled (hz : z.Lawful dayNanos minute) (hs : Scheduled C z s date original)
    {x : RenewalState × Option ℤ} {k : ℕ} {v : ℤ} (h : CaughtUp z c s date original now x k v) :
    x = (x.1, some v) ∧ Scheduled C z x.1 (dateAt (z.clock v)) v ∧
      x.1.anchorDay.getD (dateAt (z.clock v)).day = s.anchorDay.getD date.day := by
  obtain ⟨hends, hM⟩ := h.occurs.localDate hz hs.ends
  refine ⟨Prod.ext rfl h.deadline, ⟨?_, ?_, hends, ?_⟩, by rw [h.follows.anchor]; rfl⟩
  · rw [h.follows.timezone]
    exact hs.zone
  · rw [h.follows.enabled]
    exact hs.enabled
  · have h1 := hs.inRange
    have h2 := date.monthIndex_year
    have h3 := (dateAt (z.clock v)).monthIndex_year
    have h4 : 0 ≤ (k : ℤ) * c.interval := by positivity
    omega

/-- catch-up in two parts is catch-up -/
theorem CaughtUp.trans (hz : z.Lawful dayNanos minute) (hs : Scheduled C z s date original)
    {x y : RenewalState × Option ℤ} {k j : ℕ} {v w later : ℤ} (hle : now ≤ later)
    (h : CaughtUp z c s date original now x k v)
    (h' : CaughtUp z c x.1 (dateAt (z.clock v)) v later y j w) : CaughtUp z c s date original later y (k + j) w := by
  obtain ⟨-, -, hanchor⟩ := h.scheduled hz hs
  obtain ⟨hleast, hocc, hreached, hdeadline, hfollows⟩ := h'
  rw [hanchor] at hleast hocc hfollows
  refine ⟨h.least.compose hz hs.ends hle h.occurs hleast, (h.occurs.shift hz hs.ends j w).1 hocc, hreached, hdeadline,
    hfollows.enabled.trans h.follows.enabled, hfollows.timezone.trans h.follows.timezone,
    hfollows.confirmed.trans h.follows.confirmed, hfollows.anchor, hfollows.occurrence⟩

theorem catchUp_cons {x : RenewalState × Option ℤ} {t : ℕ × ℤ} {ticks : List (ℕ × ℤ)} :
    catchUp C cycle x (t :: ticks) = (tick C cycle x t).bind fun y => catchUp C cycle y ticks := rfl

theorem catchUp_caughtUp (hz : z.Lawful dayNanos minute) (hc : Cycle.parse cycle = some c) {ticks : List (ℕ × ℤ)}
    (hticks : ∀ t ∈ ticks, t.2 ≤ now) {fresh : ℕ} (hs : Scheduled C z s date original) {y : RenewalState × Option ℤ}
    (h : catchUp C cycle (s, some original) (ticks ++ [(fresh, now)]) = .ok y) :
    ∃ k v, CaughtUp z c s date original now y k v := by
  induction ticks generalizing s date original with
  | nil =>
    rw [List.nil_append, catchUp_cons] at h
    cases hx : tick C cycle (s, some original) (fresh, now) with
    | error e =>
      rw [hx] at h
      cases h
    | ok x =>
      rw [hx] at h
      cases h
      exact tick_caughtUp hz hc hs hx
  | cons t ticks ih =>
    rw [List.cons_append, catchUp_cons] at h
    cases hx : tick C cycle (s, some original) t with
    | error e =>
      rw [hx] at h
      cases h
    | ok x =>
      rw [hx] at h
      obtain ⟨k, v, hfirst⟩ : ∃ k v, CaughtUp z c s date original t.2 x k v := tick_caughtUp hz hc hs hx
      obtain ⟨hxv, hs', -⟩ := hfirst.scheduled hz hs
      change catchUp C cycle x (ticks ++ [(fresh, now)]) = .ok y at h
      rw [hxv] at h
      obtain ⟨j, w, hrest⟩ := ih (fun t' ht' => hticks t' (List.mem_cons_of_mem _ ht')) hs' h
      exact ⟨k + j, w, hfirst.trans hz hs (hticks t List.mem_cons_self) hrest⟩

/-- catch-up returns when some occurrence is not before its last instant -/
theorem catchUp_returns (hz : z.Lawful dayNanos minute) (hc : Cycle.parse cycle = some c) {ticks : List (ℕ × ℤ)}
    (hticks : ∀ t ∈ ticks, t.2 ≤ now) {fresh : ℕ} (hs : Scheduled C z s date original) {k : ℕ} {v : ℤ}
    (hv : Occurs z date (s.anchorDay.getD date.day) c.interval original k v) (hnow : now ≤ v) :
    ∃ y, catchUp C cycle (s, some original) (ticks ++ [(fresh, now)]) = .ok y := by
  induction ticks generalizing s date original k with
  | nil =>
    obtain ⟨r, hr⟩ := advance_returns hs.zone hz hs.enabled hc hs.ends hs.inRange hv hnow
    refine ⟨(r.state, r.deadline), ?_⟩
    rw [List.nil_append, catchUp_cons]
    unfold tick
    rw [hr]
    rfl
  | cons t ticks ih =>
    have hle : t.2 ≤ v := (hticks t List.mem_cons_self).trans hnow
    obtain ⟨r, hr⟩ := advance_returns hs.zone hz hs.enabled hc hs.ends hs.inRange hv hle
    have hx : tick C cycle (s, some original) t = .ok (r.state, r.deadline) := by
      unfold tick
      rw [hr]
      rfl
    obtain ⟨i, w, hfirst⟩ : ∃ i w, CaughtUp z c s date original t.2 (r.state, r.deadline) i w :=
      tick_caughtUp hz hc hs hx
    obtain ⟨hxv, hs', hanchor⟩ := hfirst.scheduled hz hs
    -- the occurrence is counted anew from the first stop
    have hik : i ≤ k := hfirst.least.2 ⟨v, hv, hle⟩
    obtain ⟨j, rfl⟩ := Nat.exists_eq_add_of_le hik
    have hv' := (hfirst.occurs.shift hz hs.ends j v).2 hv
    rw [← hanchor] at hv'
    obtain ⟨y, hy⟩ := ih (fun t' ht' => hticks t' (List.mem_cons_of_mem _ ht')) hs' hv'
    refine ⟨y, ?_⟩
    rw [List.cons_append, catchUp_cons, hx]
    change catchUp C cycle (r.state, r.deadline) (ticks ++ [(fresh, now)]) = .ok y
    rw [hxv]
    exact hy

theorem CaughtUp.view {x y : RenewalState × Option ℤ} {k j : ℕ} {v w : ℤ} (hx : CaughtUp z c s date original now x k v)
    (hy : CaughtUp z c s date original now y j w) : view x = view y := by
  obtain rfl : k = j := hx.least.unique hy.least
  obtain rfl : v = w := hx.occurs.unique hy.occurs
  unfold Renewal.view
  rw [hx.deadline, hy.deadline, hx.follows.anchor, hy.follows.anchor, hx.follows.confirmed, hy.follows.confirmed]

/-- a second call at the same instant changes nothing -/
theorem CaughtUp.again (hz : z.Lawful dayNanos minute) (hc : Cycle.parse cycle = some c)
    (hs : Scheduled C z s date original) {x : RenewalState × Option ℤ} {k : ℕ} {v : ℤ}
    (h : CaughtUp z c s date original now x k v) (fresh : ℕ) : tick C cycle x (fresh, now) = .ok x := by
  obtain ⟨hx, hs', hanchor⟩ := h.scheduled hz hs
  obtain ⟨occurrence, hoccurrence⟩ := Option.isSome_iff_exists.1 h.follows.occurrence
  have hsame : ({ x.1 with
      anchorDay := some (x.1.anchorDay.getD (dateAt (z.clock v)).day)
      occurrenceId := some (x.1.occurrenceId.getD fresh) } : RenewalState) = x.1 := by
    rw [hanchor, ← h.follows.anchor, hoccurrence, Option.getD_some, ← hoccurrence]
  unfold tick
  rw [h.deadline, advance_eq hs'.zone hz hs'.enabled hc hs'.ends, if_pos h.reached, hsame]
  exact congrArg Except.ok hx.symm

end Run

/-- **Catch-up is path independent.** For an enabled state with a renewal cycle, a deadline made by `date_boundary` and
a lawful time zone:
- calls at any instants up to `now` and then at `now` leave the deadline, anchor and confirmed deadline that one call at
  `now` leaves, or both fail; a second call at `now` changes nothing at all;
- the deadline is the boundary of the least number of cycles whose boundary is not before `now`, and the call returns
  whenever there is one;
- the confirmed deadline is never changed. -/
theorem catchUp_path_independent (C : Crates) (z : Zone) (hz : z.Lawful dayNanos minute) (cycle : String) (c : Cycle)
    (hc : Cycle.parse cycle = some c) (s : RenewalState) (hen : s.enabled = true)
    (hzone : C.zone s.billingTimezone = some z) (date : Date) (hdate : minYear ≤ date.year) (original : ℤ)
    (horiginal : dateBoundary C date s.billingTimezone = .ok original) (ticks : List (ℕ × ℤ)) (now : ℤ)
    (hticks : ∀ t ∈ ticks, t.2 ≤ now) (fresh fresh' : ℕ) :
    let once := tick C cycle (s, some original) (fresh, now)
    let anchor := s.anchorDay.getD date.day
    (catchUp C cycle (s, some original) (ticks ++ [(fresh', now)])).toOption.map view = once.toOption.map view ∧
    (∀ x, once = .ok x → tick C cycle x (fresh', now) = .ok x) ∧
    (∀ x, once = .ok x → ∃ k v, LeastCycles z date anchor c.interval original now k ∧
      Occurs z date anchor c.interval original k v ∧ x.2 = some v ∧ x.1.anchorDay = some anchor) ∧
    ((∃ k v, Occurs z date anchor c.interval original k v ∧ now ≤ v) → ∃ x, once = .ok x) ∧
    (∀ x, catchUp C cycle (s, some original) (ticks ++ [(fresh', now)]) = .ok x →
      x.1.confirmedExpiredAt = s.confirmedExpiredAt) := by
  intro once anchor
  have hends : EndsAt z date original := by
    refine ((boundary_spec hzone hz date).1 original).1 ?_
    unfold dateBoundary at horiginal
    split at horiginal
    · cases horiginal
    · cases horiginal
    · rename_i boundary hboundary
      cases horiginal
      exact hboundary
  have hs : Scheduled C z s date original := ⟨hzone, hen, hends, hdate⟩
  have hreturns : (∃ k v, Occurs z date anchor c.interval original k v ∧ now ≤ v) → ∃ x, once = .ok x := by
    rintro ⟨k, v, hv, hnow⟩
    obtain ⟨r, hr⟩ : ∃ r, advance C fresh s (some original) (some cycle) now = .ok r :=
      advance_returns hzone hz hen hc hends hdate hv hnow
    exact ⟨(r.state, r.deadline), by simp only [once, tick, hr]; rfl⟩
  refine ⟨?_, fun x hx => ?_, fun x hx => ?_, hreturns, fun x hx => ?_⟩
  · by_cases hsome : ∃ k v, Occurs z date anchor c.interval original k v ∧ now ≤ v
    · obtain ⟨x, hx⟩ := hreturns hsome
      obtain ⟨k, v, hv, hnow⟩ := hsome
      obtain ⟨y, hy⟩ : ∃ y, catchUp C cycle (s, some original) (ticks ++ [(fresh', now)]) = .ok y :=
        catchUp_returns hz hc hticks hs hv hnow
      obtain ⟨_, _, hxc⟩ := tick_caughtUp hz hc hs hx
      obtain ⟨_, _, hyc⟩ := catchUp_caughtUp hz hc hticks hs hy
      rw [hx, hy]
      exact congrArg some (hyc.view hxc)
    · -- no occurrence is late enough: neither returns
      have hx : ∀ x, once ≠ .ok x := by
        intro x hx
        obtain ⟨k, v, h⟩ := tick_caughtUp hz hc hs hx
        exact hsome ⟨k, v, h.occurs, h.reached⟩
      have hy : ∀ y, catchUp C cycle (s, some original) (ticks ++ [(fresh', now)]) ≠ .ok y := by
        intro y hy
        obtain ⟨k, v, h⟩ := catchUp_caughtUp hz hc hticks hs hy
        exact hsome ⟨k, v, h.occurs, h.reached⟩
      cases h1 : once with
      | ok x => exact absurd h1 (hx x)
      | error e =>
        cases h2 : catchUp C cycle (s, some original) (ticks ++ [(fresh', now)]) with
        | ok y => exact absurd h2 (hy y)
        | error e' => rfl
  · obtain ⟨k, v, h⟩ := tick_caughtUp hz hc hs hx
    exact h.again hz hc hs fresh'
  · obtain ⟨k, v, h⟩ := tick_caughtUp hz hc hs hx
    exact ⟨k, v, h.least, h.occurs, h.deadline, h.follows.anchor⟩
  · obtain ⟨k, v, h⟩ := catchUp_caughtUp hz hc hticks hs hx
    exact h.follows.confirmed

/-! ## A schedule in UTC -/

def january31 : Date := ⟨2026, 1, 31, by decide, by decide, by decide, by decide⟩

/-- 2026-01-31T23:59:59.999999999Z -/
def january31End : ℤ := 1769903999999999999

theorem january31_boundary : dateBoundary utcCrates january31 "UTC" = .ok january31End := by
  have hmidnight : midnight january31 + dayNanos = january31End + 1 := by decide
  have hinner : succOpt january31 ≠ none := by
    intro hnone
    have hlt : january31.monthIndex < (⟨2026, 2, 1, by decide, by decide, by decide, by decide⟩ : Date).monthIndex := by
      decide
    exact absurd (succOpt_none hnone hlt) (by decide)
  have hends : EndsAt utc january31 january31End := by
    refine ⟨⟨0, by decide, midnight january31, by decide⟩, Option.isSome_iff_ne_none.2 hinner, ?_, ?_⟩
    · show _ ≤ january31End + 1 + 0
      omega
    · intro u hu
      change _ ≤ u + 0 at hu
      omega
  unfold dateBoundary
  rw [((boundary_spec rfl utc_lawful january31).1 _).2 hends]

/-- a monthly schedule that is caught up on 1 February and on 11 April, and one that is caught up on 11 April only -/
theorem catchUp_utc :
    let s : RenewalState := ⟨true, .confirmed, none, none, "UTC", some january31End⟩
    let april : ℤ := january31End + 70 * dayNanos
    (catchUp utcCrates "monthly" (s, some january31End) [(0, january31End + 1), (2, april)]).toOption.map view =
      (tick utcCrates "monthly" (s, some january31End) (0, april)).toOption.map view := by
  intro s april
  exact (catchUp_path_independent utcCrates utc utc_lawful "monthly" .monthly rfl s rfl rfl january31 (by decide)
    january31End january31_boundary [(0, january31End + 1)] april (by decide) 0 2).1

end ServerBee.Renewal
