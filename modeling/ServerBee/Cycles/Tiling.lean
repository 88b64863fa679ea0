/-
Billing cycles tile the calendar.

With `k` months to a cycle and anchor day `a`, cycle `i` begins on day `a` of month `k * i`. `boundary k a` strictly
increases, so its tiles cover every day once; `cycleNumber` reads the number of the tile off a date, and `getCycleRange_eq`
says that the code returns exactly that tile, unless it panics. It does where `add_months` reaches a month of a negative year
other than January: Rust divides towards zero there, and the remainder is no month.
-/
import ServerBee.Cycles.Ranges
import ServerBee.Lib.Tiling

namespace ServerBee.Cycles

open ServerBee.Lib.Calendar ServerBee.Lib.Tiling

/-! ## Tiles -/

/-- the months of a cycle -/
def periodMonths (billingCycle : String) : ℕ :=
  match billingCycle with
  | "quarterly" => 3
  | "yearly" => 12
  | _ => 1

theorem periodMonths_cases (billingCycle : String) :
    periodMonths billingCycle = 1 ∨ periodMonths billingCycle = 3 ∨ periodMonths billingCycle = 12 := by
  unfold periodMonths
  split <;> simp

theorem anchorOf_bounds (billingStartDay : Option ℤ) : 1 ≤ anchorOf billingStartDay ∧ anchorOf billingStartDay ≤ 28 := by
  unfold anchorOf
  omega

def boundary (k a : ℕ) (i : ℤ) : ℤ := firstDay (k * i) + (a - 1 : ℕ)

theorem boundary_strictMono {k : ℕ} (hk : 0 < k) (a : ℕ) : StrictMono (boundary k a) := by
  refine strictMono_int_of_lt_succ fun i => ?_
  have hadd := firstDay_add (k * i) k
  have hnext : (k : ℤ) * (i + 1) = k * i + k := by ring
  unfold boundary
  rw [hnext]
  omega

/-- the number of the cycle that a date lies in -/
def cycleNumber (k a : ℕ) (d : Date) : ℤ := (d.monthIndex - if d.day < a then 1 else 0) / k

theorem boundary_le_iff {k a : ℕ} (hk : 0 < k) (ha : a ≤ 28) (d : Date) (i : ℤ) :
    boundary k a i ≤ d.dayNumber ↔ i ≤ cycleNumber k a d := by
  rw [cycleNumber, Int.le_ediv_iff_mul_le (by omega), mul_comm i]
  have hd := d.dayNumber_bounds
  have hday := d.day_pos
  have hnumber : d.dayNumber = firstDay d.monthIndex + (d.day - 1 : ℕ) := rfl
  unfold boundary
  rcases lt_trichotomy ((k : ℤ) * i) d.monthIndex with hlt | heq | hlt
  · have hle := firstDay_add (k * i) 1
    have hmono := firstDay_mono (show (k : ℤ) * i + 1 ≤ d.monthIndex by omega)
    push_cast at hle
    constructor
    · intro _
      split_ifs <;> omega
    · intro _
      omega
  · rw [heq]
    constructor
    · intro h
      split_ifs <;> omega
    · intro h
      split_ifs at h <;> omega
  · have hmono := firstDay_mono (show d.monthIndex + 1 ≤ (k : ℤ) * i by omega)
    constructor
    · intro h
      omega
    · intro h
      split_ifs at h <;> omega

theorem inTile_iff {k a : ℕ} (hk : 0 < k) (ha : a ≤ 28) (d : Date) (i : ℤ) :
    InTile (boundary k a) i d.dayNumber ↔ cycleNumber k a d = i := by
  unfold InTile
  rw [boundary_le_iff hk ha, ← not_le, boundary_le_iff hk ha]
  omega

/-! ## Dates of a tile -/

theorem le_monthLength {a : ℕ} (ha : a ≤ 28) (M : ℤ) : a ≤ monthLength M := ha.trans (monthLength_bounds M).1

section Dates

variable {a : ℕ} (ha : 1 ≤ a ∧ a ≤ 28)

/-- day `a` of a month -/
def anchorDate (M : ℤ) : Date := Date.ofIndex M a ha.1 (le_monthLength ha.2 M)

theorem anchorDate_dayNumber (M : ℤ) : (anchorDate ha M).dayNumber = firstDay M + (a - 1 : ℕ) := by
  simp [anchorDate, Date.dayNumber]

/-- the first and the last date of a cycle -/
def cycleDates (k : ℕ) (i : ℤ) : Date × Date := (anchorDate ha (k * i), Date.ofDayNumber (boundary k a (i + 1) - 1))

theorem cycleDates_fst (k : ℕ) (i : ℤ) : (cycleDates ha k i).1.dayNumber = boundary k a i := anchorDate_dayNumber ha _

theorem cycleDates_snd (k : ℕ) (i : ℤ) : (cycleDates ha k i).2.dayNumber = boundary k a (i + 1) - 1 :=
  Date.dayNumber_ofDayNumber _

end Dates

/-! ## chrono's functions -/

def InRange (year : ℤ) : Prop := MIN_YEAR ≤ year ∧ year ≤ MAX_YEAR

theorem fromYmdOpt_anchor {a : ℕ} (ha : 1 ≤ a ∧ a ≤ 28) (M : ℤ) :
    fromYmdOpt (M / 12) ((M % 12).toNat + 1) a =
      if MIN_YEAR ≤ M / 12 ∧ M / 12 ≤ MAX_YEAR then some (anchorDate ha M) else none := by
  have hday := le_monthLength ha.2 M
  unfold monthLength at hday
  unfold fromYmdOpt
  split_ifs with h h' h'
  · rfl
  · exact absurd h.1 h'
  · exact absurd ⟨h', ⟨by omega, by omega⟩, ha.1, hday⟩ h
  · rfl

theorem fromYmdOpt_month {year : ℤ} {month a : ℕ} (ha : 1 ≤ a ∧ a ≤ 28) (hm : 1 ≤ month ∧ month ≤ 12) :
    fromYmdOpt year month a =
      if MIN_YEAR ≤ year ∧ year ≤ MAX_YEAR then some (anchorDate ha (12 * year + (month - 1 : ℕ))) else none := by
  have h := fromYmdOpt_anchor ha (12 * year + (month - 1 : ℕ))
  have hyear : (12 * year + (month - 1 : ℕ)) / 12 = year := by omega
  have hmonth : ((12 * year + (month - 1 : ℕ)) % 12).toNat + 1 = month := by omega
  rwa [hyear, hmonth] at h

theorem addDays_eq {d e : Date} {n : ℤ} (h : e.dayNumber = d.dayNumber + n) :
    addDays d n = if MIN_YEAR ≤ e.year ∧ e.year ≤ MAX_YEAR then some e else none := by
  have he : Date.ofDayNumber (d.dayNumber + n) = e := by rw [← h, Date.ofDayNumber_dayNumber]
  simp only [addDays, he]

/-- where a date lies says what its month is -/
theorem monthIndex_bounds {d : Date} {M N : ℤ} (hM : firstDay M ≤ d.dayNumber) (hN : d.dayNumber < firstDay N) :
    M ≤ d.monthIndex ∧ d.monthIndex < N := by
  have hd := d.dayNumber_bounds
  constructor
  · by_contra hlt
    have := firstDay_mono (show d.monthIndex + 1 ≤ M by omega)
    omega
  · by_contra hle
    have := firstDay_mono (show N ≤ d.monthIndex by omega)
    omega

theorem asU32_natCast {n : ℕ} (h : n < 4294967296) : asU32 n = n := by
  unfold asU32
  omega

theorem daysInMonth_eq {year : ℤ} {month : ℕ} (hm : 1 ≤ month ∧ month ≤ 12) (hyear : MIN_YEAR ≤ year ∧ year < MAX_YEAR) :
    daysInMonth year month = some (Lib.Calendar.daysInMonth year month) := by
  set M : ℤ := 12 * year + (month - 1 : ℕ) with hM
  have hMyear : M / 12 = year := by omega
  have hMmonth : (M % 12).toNat + 1 = month := by omega
  have hlength : monthLength M = Lib.Calendar.daysInMonth year month := by rw [monthLength, hMyear, hMmonth]
  have hpos := (monthLength_bounds M).1
  -- the last day of the month, the day before the first of the next
  set last : Date := Date.ofIndex M (monthLength M) (by omega) le_rfl with hlast
  have hnext : fromYmdOpt (if month = 12 then year + 1 else year) (if month = 12 then 1 else asU32 (month + 1)) 1 =
      some (anchorDate (a := 1) (by omega) (M + 1)) := by
    have hcast : asU32 (month + 1) = month + 1 := asU32_natCast (n := month + 1) (by omega)
    by_cases h12 : month = 12
    · rw [if_pos h12, if_pos h12, fromYmdOpt_month (a := 1) (by omega) (by omega), if_pos (by omega)]
      congr 2
      omega
    · rw [if_neg h12, if_neg h12, hcast, fromYmdOpt_month (a := 1) (by omega) (by omega), if_pos (by omega)]
      congr 2
      omega
  have hprev : last.dayNumber = (anchorDate (a := 1) (by omega) (M + 1)).dayNumber + -1 := by
    rw [anchorDate_dayNumber, firstDay_succ, Date.dayNumber, hlast, Date.ofIndex_monthIndex, Date.ofIndex_day]
    omega
  have hlastYear : last.year = year := hMyear
  rw [daysInMonth, hnext]
  simp only [Option.bind_eq_bind, Option.bind_some, addDays_eq hprev, hlastYear]
  rw [if_pos (by omega)]
  exact congrArg some hlength

/-- the month that the division by 12 is wrong for -/
theorem daysInMonth_none {year : ℤ} {month : ℕ} (h : 4294967280 < month) (hmax : month < 4294967296) :
    daysInMonth year month = none := by
  have hnext : asU32 (month + 1) = 0 ∨ 12 < asU32 (month + 1) := by
    unfold asU32
    omega
  have hnone : fromYmdOpt year (asU32 (month + 1)) 1 = none := by
    rw [fromYmdOpt, dif_neg]
    rintro ⟨-, hm, -⟩
    omega
  rw [daysInMonth, if_neg (by omega), if_neg (by omega), hnone]
  rfl

theorem fromYmdOpt_zero (year : ℤ) (day : ℕ) : fromYmdOpt year 0 day = none := by
  rw [fromYmdOpt, dif_neg]
  rintro ⟨-, hm, -⟩
  omega

/-- what `add_months` returns, from day `a` of month `M` -/
theorem addMonths_anchor {a : ℕ} (ha : 1 ≤ a ∧ a ≤ 28) {M : ℤ} {months : ℕ} (hlow : MIN_YEAR ≤ M / 12)
    (hhigh : (M + months) / 12 < MAX_YEAR) :
    addMonths (anchorDate ha M) months =
      if 0 ≤ M + months ∨ 12 ∣ M + months then some (anchorDate ha (M + months)) else none := by
  have htotal : (anchorDate ha M).year * 12 + (anchorDate ha M).month - 1 + months = M + months := by
    have hyear : (anchorDate ha M).year = M / 12 := rfl
    have hmonth : (anchorDate ha M).month = (M % 12).toNat + 1 := rfl
    rw [hyear, hmonth]
    omega
  have hday : (anchorDate ha M).day = a := rfl
  unfold addMonths
  simp only [htotal, hday]
  set T := M + (months : ℤ) with hT
  split_ifs with h
  · -- the quotient and the remainder are those of the calendar
    have hdiv : T.tdiv 12 = T / 12 ∧ T.tmod 12 = T % 12 := by
      rcases h with h | ⟨c, hc⟩
      · exact ⟨Int.tdiv_eq_ediv_of_nonneg h, Int.tmod_eq_emod_of_nonneg h⟩
      · rw [hc]
        simp
    have hcast : asU32 (T % 12 + 1) = (T % 12).toNat + 1 := by
      unfold asU32
      omega
    rw [hdiv.1, hdiv.2, hcast, daysInMonth_eq (by omega) (by omega)]
    have hmin : min a (Lib.Calendar.daysInMonth (T / 12) ((T % 12).toNat + 1)) = a :=
      min_eq_left (le_monthLength ha.2 T)
    rw [Option.bind_eq_bind, Option.bind_some, hmin, fromYmdOpt_anchor ha, if_pos (by omega)]
  · push Not at h
    -- the remainder is negative: its month is 0, or nearly 2^32
    have hneg : -12 < T.tmod 12 ∧ T.tmod 12 < 0 := by
      have hmod : T.tmod 12 = T % 12 - 12 := by
        rw [Int.tmod_eq_emod]
        rw [if_neg]
        · rfl
        · rintro (h0 | hdvd)
          · omega
          · exact h.2 hdvd
      omega
    by_cases hzero : T.tmod 12 = -1
    · have hmonth : asU32 (T.tmod 12 + 1) = 0 := by rw [hzero]; rfl
      rw [hmonth]
      cases daysInMonth (T.tdiv 12) 0 with
      | none => rfl
      | some length => exact fromYmdOpt_zero _ _
    · have hmonth : 4294967280 < asU32 (T.tmod 12 + 1) ∧ asU32 (T.tmod 12 + 1) < 4294967296 := by
        unfold asU32
        omega
      rw [daysInMonth_none hmonth.1 hmonth.2]
      rfl

/-! ## The ranges -/

/-- the day after cycle `i` is one that the code can compute -/
def EndReckoned (k a : ℕ) (i : ℤ) : Prop := (k = 1 ∧ a = 1) ∨ 0 ≤ k * (i + 1) ∨ (12 : ℤ) ∣ k * (i + 1)

instance (k a : ℕ) (i : ℤ) : Decidable (EndReckoned k a i) := inferInstanceAs (Decidable (_ ∨ _ ∨ _))

/-- cycle `i` begins in chrono's range and its end can be computed -/
def Computed (k a : ℕ) (i : ℤ) : Prop := MIN_YEAR ≤ k * i / 12 ∧ EndReckoned k a i

instance (k a : ℕ) (i : ℤ) : Decidable (Computed k a i) := inferInstanceAs (Decidable (_ ∧ _))

section Ranges

variable {a : ℕ} (ha : 1 ≤ a ∧ a ≤ 28)

/-- the last date of a cycle, from the first date of the next -/
theorem addDays_next (k : ℕ) (hk : 0 < k) (i : ℤ) (hlow : MIN_YEAR ≤ k * i / 12) (hhigh : (k * (i + 1)) / 12 ≤ MAX_YEAR) :
    addDays (anchorDate ha (k * (i + 1))) (-1) = some (cycleDates ha k i).2 := by
  have hprev : (cycleDates ha k i).2.dayNumber = (anchorDate ha (k * (i + 1))).dayNumber + -1 := by
    rw [cycleDates_snd, anchorDate_dayNumber, boundary]
    ring
  have hstart : firstDay (k * i) ≤ (cycleDates ha k i).2.dayNumber := by
    have := boundary_strictMono hk a (show i < i + 1 by omega)
    rw [cycleDates_snd]
    unfold boundary at this ⊢
    omega
  have hend : (cycleDates ha k i).2.dayNumber < firstDay (k * (i + 1) + 1) := by
    have := (monthLength_bounds (k * (i + 1))).1
    rw [cycleDates_snd, boundary, firstDay_succ]
    omega
  have hmonth := monthIndex_bounds hstart hend
  have hyear := (cycleDates ha k i).2.monthIndex_year
  rw [addDays_eq hprev, if_pos]
  constructor <;> omega

theorem rangeFrom_anchor (k : ℕ) (hk : 0 < k) (i : ℤ) (hlow : MIN_YEAR ≤ k * i / 12) (hhigh : (k * (i + 1)) / 12 < MAX_YEAR) :
    rangeFrom (anchorDate ha (k * i)) k =
      if 0 ≤ k * (i + 1) ∨ (12 : ℤ) ∣ k * (i + 1) then some (cycleDates ha k i) else none := by
  have hnext : (k : ℤ) * i + k = k * (i + 1) := by ring
  have hadd : addMonths (anchorDate ha (k * i)) k = _ := addMonths_anchor ha hlow (by rwa [hnext])
  rw [hnext] at hadd
  rw [rangeFrom, hadd]
  split_ifs with h
  · rw [Option.bind_eq_bind, Option.bind_some, addDays_next ha k hk i hlow hhigh.le]
    rfl
  · rfl

theorem cycleNumber_bounds {k : ℕ} (hk : 0 < k) (hk12 : k ≤ 12) (a : ℕ) (d : Date) :
    k * cycleNumber k a d ≤ d.monthIndex ∧ d.monthIndex ≤ k * (cycleNumber k a d + 1) := by
  have hdiv := Int.mul_ediv_add_emod (d.monthIndex - if d.day < a then 1 else 0) k
  have hpos := Int.emod_nonneg (d.monthIndex - if d.day < a then 1 else 0) (show (k : ℤ) ≠ 0 by omega)
  have hlt := Int.emod_lt_of_pos (d.monthIndex - if d.day < a then 1 else 0) (show (0 : ℤ) < k by omega)
  rw [mul_add, mul_one]
  unfold cycleNumber
  split_ifs at * <;> constructor <;> omega

/-- the year in which a cycle that meets year `d.year` ends -/
theorem next_year_lt {k : ℕ} (hk : 0 < k) (hk12 : k ≤ 12) (a : ℕ) {d : Date} (hhigh : d.year + 2 ≤ MAX_YEAR) :
    (k * (cycleNumber k a d + 1)) / 12 < MAX_YEAR := by
  have h := (cycleNumber_bounds hk hk12 a d).1
  have hyear := d.monthIndex_year
  rw [mul_add, mul_one]
  omega

/-- the first date of the cycle of a month -/
theorem monthlyStart_eq {d : Date} (hlow : MIN_YEAR ≤ d.year) (hhigh : d.year ≤ MAX_YEAR) :
    monthlyStart a d =
      if MIN_YEAR ≤ cycleNumber 1 a d / 12 then some (anchorDate ha (cycleNumber 1 a d)) else none := by
  have hyear := d.monthIndex_year
  have hmonth := d.monthIndex_month
  set i := cycleNumber 1 a d with hi
  have hi' : i = d.monthIndex - if d.day < a then 1 else 0 := by rw [hi, cycleNumber, Nat.cast_one, Int.ediv_one]
  by_cases hday : a ≤ d.day
  · have him : i = d.monthIndex := by rw [hi', if_neg (by omega), sub_zero]
    have h := fromYmdOpt_anchor ha d.monthIndex
    rw [hyear, hmonth] at h
    rw [monthlyStart, if_pos hday, h, him, hyear, if_pos ⟨hlow, hhigh⟩, if_pos hlow]
  · have him : i = d.monthIndex - 1 := by rw [hi', if_pos (by omega)]
    -- `today - today.day()` is the last day of the month before
    set prev : Date := Date.ofIndex i (monthLength i) (by have := (monthLength_bounds i).1; omega) le_rfl with hprev
    have hnumber : prev.dayNumber = d.dayNumber + -d.day := by
      have hsucc := firstDay_succ i
      have hlen := (monthLength_bounds i).1
      have hpos := d.day_pos
      have hnext : i + 1 = d.monthIndex := by omega
      rw [hnext] at hsucc
      simp only [Date.dayNumber, hprev, Date.ofIndex_monthIndex, Date.ofIndex_day]
      omega
    have hprevYear : prev.year = i / 12 := rfl
    have hprevMonth : prev.month = (i % 12).toNat + 1 := rfl
    rw [monthlyStart, if_neg hday, addDays_eq hnumber, hprevYear]
    split_ifs with hin hmin hmin
    · rw [Option.bind_eq_bind, Option.bind_some, hprevMonth, hprevYear, fromYmdOpt_anchor ha, if_pos hin]
    · exact absurd hin.1 hmin
    · exact absurd ⟨hmin, by omega⟩ hin
    · rfl

theorem nextMonth_anchor {M : ℤ} (hlow : MIN_YEAR ≤ M / 12) (hhigh : M / 12 < MAX_YEAR) :
    nextMonth (anchorDate ha M) = some (anchorDate (a := 1) (by omega) (M + 1)) := by
  have hyear : (anchorDate ha M).year = M / 12 := rfl
  have hmonth : (anchorDate ha M).month = (M % 12).toNat + 1 := rfl
  rw [nextMonth, hyear, hmonth]
  split_ifs with h12
  · rw [fromYmdOpt_month (a := 1) (by omega) (by omega), if_pos (by omega)]
    congr 2
    omega
  · rw [fromYmdOpt_month (a := 1) (by omega) (by omega), if_pos (by omega)]
    congr 2
    omega

theorem getMonthlyRange_eq {d : Date} (hlow : MIN_YEAR ≤ d.year) (hhigh : d.year + 2 ≤ MAX_YEAR) :
    getMonthlyRange a d =
      if Computed 1 a (cycleNumber 1 a d) then some (cycleDates ha 1 (cycleNumber 1 a d)) else none := by
  have hnextYear := next_year_lt (k := 1) (by omega) (by omega) a hhigh
  rw [getMonthlyRange, monthlyStart_eq ha hlow (by omega)]
  set i := cycleNumber 1 a d
  have hone : ((1 : ℕ) : ℤ) * i = i := by rw [Nat.cast_one, one_mul]
  by_cases hmin : MIN_YEAR ≤ i / 12
  · rw [if_pos hmin, Option.bind_eq_bind, Option.bind_some]
    have hlow' : MIN_YEAR ≤ ((1 : ℕ) : ℤ) * i / 12 := by rwa [hone]
    by_cases h1 : a = 1
    · subst h1
      have hend := addDays_next ha 1 (by omega) i hlow' hnextYear.le
      rw [Nat.cast_one, one_mul] at hend
      have hnext : nextMonth (anchorDate ha i) = some (anchorDate ha (i + 1)) := nextMonth_anchor ha hmin (by omega)
      rw [monthlyEnd, if_pos rfl, hnext, if_pos (show Computed 1 1 i from ⟨hlow', Or.inl ⟨rfl, rfl⟩⟩)]
      simp only [Option.bind_eq_bind, Option.bind_some, hend]
      simp [cycleDates]
    · have hrange := rangeFrom_anchor ha 1 (by omega) i hlow' hnextYear
      have hreckoned : EndReckoned 1 a i ↔ 0 ≤ ((1 : ℕ) : ℤ) * (i + 1) ∨ (12 : ℤ) ∣ ((1 : ℕ) : ℤ) * (i + 1) := by
        simp [EndReckoned, h1]
      have hfrom : rangeFrom (anchorDate ha i) 1 = (monthlyEnd a (anchorDate ha i)).bind fun e => some (anchorDate ha i, e) := by
        rw [rangeFrom, monthlyEnd, if_neg h1]
        simp only [Option.bind_eq_bind, Option.bind_assoc, Option.pure_def]
      simp only [Computed, hlow', hreckoned, true_and, ← hrange]
      rw [Nat.cast_one, one_mul, hfrom]
      rfl
  · rw [if_neg hmin, if_neg fun h => hmin (by simpa using h.1)]
    rfl

theorem getYearlyRange_eq {d : Date} (hlow : MIN_YEAR ≤ d.year) (hhigh : d.year + 2 ≤ MAX_YEAR) :
    getYearlyRange a d =
      if Computed 12 a (cycleNumber 12 a d) then some (cycleDates ha 12 (cycleNumber 12 a d)) else none := by
  have hdvd : ∀ i : ℤ, (12 : ℤ) ∣ ((12 : ℕ) : ℤ) * (i + 1) := fun i => Dvd.intro _ rfl
  have hreckoned : ∀ i, EndReckoned 12 a i := fun i => Or.inr (Or.inr (hdvd i))
  have hnextYear := next_year_lt (k := 12) (by omega) (by omega) a hhigh
  have hle := boundary_le_iff (k := 12) (by omega) ha.2 d
  have hbounds := cycleNumber_bounds (k := 12) (by omega) (by omega) a d
  have hyear := d.monthIndex_year
  set i := cycleNumber 12 a d
  have hfrom := rangeFrom_anchor ha 12 (by omega) i
  have hstart : ∀ y : ℤ, MIN_YEAR ≤ y → y ≤ MAX_YEAR → fromYmdOpt y 1 a = some (anchorDate ha ((12 : ℕ) * y)) := by
    intro y hy hy'
    rw [fromYmdOpt_month ha (by omega), if_pos ⟨hy, hy'⟩]
    norm_num
  have hnumber : ∀ y : ℤ, (anchorDate ha ((12 : ℕ) * y)).dayNumber = boundary 12 a y := fun y => anchorDate_dayNumber ha _
  rw [getYearlyRange, hstart d.year hlow (by omega), Option.bind_eq_bind, Option.bind_some, hnumber]
  simp only [Computed, hreckoned, and_true]
  by_cases hthis : boundary 12 a d.year ≤ d.dayNumber
  · have hi : i = d.year := by
      have := (hle d.year).1 hthis
      push_cast at hbounds
      omega
    rw [if_pos hthis, ← hi, hfrom (by omega) hnextYear, if_pos (Or.inr (hdvd i)), if_pos (by omega)]
  · have hi : i = d.year - 1 := by
      have := mt (hle d.year).2 hthis
      push_cast at hbounds
      omega
    rw [if_neg hthis]
    by_cases hmin : MIN_YEAR ≤ d.year - 1
    · rw [hstart (d.year - 1) hmin (by omega), Option.bind_some, ← hi, hfrom (by omega) hnextYear,
        if_pos (Or.inr (hdvd i)), if_pos (by omega)]
    · rw [fromYmdOpt_month ha (by omega), if_neg (by omega), if_neg (by omega)]
      rfl

/-- the first date of the cycle of a quarter -/
theorem quarterlyStart_eq {d : Date} (hlow : MIN_YEAR ≤ d.year) (hhigh : d.year ≤ MAX_YEAR) :
    quarterlyStart a d =
      if MIN_YEAR ≤ ((3 : ℕ) : ℤ) * cycleNumber 3 a d / 12 then some (anchorDate ha ((3 : ℕ) * cycleNumber 3 a d))
      else none := by
  have hle := boundary_le_iff (k := 3) (by omega) ha.2 d
  have hbounds := cycleNumber_bounds (k := 3) (by omega) (by omega) a d
  have hyear := d.monthIndex_year
  set i := cycleNumber 3 a d
  -- the candidate of quarter `q` of the year, tried from the last to the first
  have hcandidate : ∀ q : ℕ, q ≤ 3 → (fromYmdOpt d.year (3 * q + 1) a).filter (fun c => c.dayNumber ≤ d.dayNumber) =
      if 4 * d.year + q ≤ i then some (anchorDate ha ((3 : ℕ) * (4 * d.year + q))) else none := by
    intro q hq
    have hmonth : 12 * d.year + ((3 * q + 1 - 1 : ℕ) : ℤ) = ((3 : ℕ) : ℤ) * (4 * d.year + q) := by push_cast; omega
    have hnumber : (anchorDate ha ((3 : ℕ) * (4 * d.year + q))).dayNumber = boundary 3 a (4 * d.year + q) :=
      anchorDate_dayNumber ha _
    rw [fromYmdOpt_month ha (by omega), if_pos ⟨hlow, hhigh⟩, hmonth, Option.filter_some, hnumber]
    simp only [decide_eq_true_eq, hle]
  have h0 := hcandidate 0 (by omega)
  have h1 := hcandidate 1 (by omega)
  have h2 := hcandidate 2 (by omega)
  have h3 := hcandidate 3 (by omega)
  norm_num at h0 h1 h2 h3
  push_cast at hbounds
  simp only [quarterlyStart, quarterStartMonths, List.reverse_cons, List.reverse_nil, List.nil_append, List.cons_append,
    List.findSome?_cons, List.findSome?_nil, h0, h1, h2, h3]
  push_cast
  rcases (show i = 4 * d.year + 3 ∨ i = 4 * d.year + 2 ∨ i = 4 * d.year + 1 ∨ i = 4 * d.year ∨ i = 4 * d.year - 1 by
    omega) with h | h | h | h | h
  · rw [if_pos (show 4 * d.year + 3 ≤ i by omega), if_pos (show MIN_YEAR ≤ 3 * i / 12 by omega), h]
  · rw [if_neg (show ¬ 4 * d.year + 3 ≤ i by omega), if_pos (show 4 * d.year + 2 ≤ i by omega),
      if_pos (show MIN_YEAR ≤ 3 * i / 12 by omega), h]
  · rw [if_neg (show ¬ 4 * d.year + 3 ≤ i by omega), if_neg (show ¬ 4 * d.year + 2 ≤ i by omega),
      if_pos (show 4 * d.year < i by omega), if_pos (show MIN_YEAR ≤ 3 * i / 12 by omega), h]
  · rw [if_neg (show ¬ 4 * d.year + 3 ≤ i by omega), if_neg (show ¬ 4 * d.year + 2 ≤ i by omega),
      if_neg (show ¬ 4 * d.year < i by omega), if_pos (show 4 * d.year ≤ i by omega),
      if_pos (show MIN_YEAR ≤ 3 * i / 12 by omega), h]
  · -- no quarter of this year has begun
    rw [if_neg (show ¬ 4 * d.year + 3 ≤ i by omega), if_neg (show ¬ 4 * d.year + 2 ≤ i by omega),
      if_neg (show ¬ 4 * d.year < i by omega), if_neg (show ¬ 4 * d.year ≤ i by omega)]
    have hmonth : 12 * (d.year - 1) + ((10 - 1 : ℕ) : ℤ) = 3 * i := by
      push_cast
      omega
    rw [fromYmdOpt_month ha (by omega), hmonth]
    by_cases hmin : MIN_YEAR ≤ d.year - 1
    · rw [if_pos ⟨hmin, by omega⟩, if_pos (show MIN_YEAR ≤ 3 * i / 12 by omega)]
    · rw [if_neg fun hin => hmin hin.1, if_neg (show ¬ MIN_YEAR ≤ 3 * i / 12 by omega)]

theorem getQuarterlyRange_eq {d : Date} (hlow : MIN_YEAR ≤ d.year) (hhigh : d.year + 2 ≤ MAX_YEAR) :
    getQuarterlyRange a d =
      if Computed 3 a (cycleNumber 3 a d) then some (cycleDates ha 3 (cycleNumber 3 a d)) else none := by
  have hnextYear := next_year_lt (k := 3) (by omega) (by omega) a hhigh
  rw [getQuarterlyRange, quarterlyStart_eq ha hlow (by omega)]
  set i := cycleNumber 3 a d
  have hreckoned : EndReckoned 3 a i ↔ 0 ≤ ((3 : ℕ) : ℤ) * (i + 1) ∨ (12 : ℤ) ∣ ((3 : ℕ) : ℤ) * (i + 1) := by
    simp [EndReckoned]
  by_cases hmin : MIN_YEAR ≤ ((3 : ℕ) : ℤ) * i / 12
  · rw [if_pos hmin, Option.bind_eq_bind, Option.bind_some, rangeFrom_anchor ha 3 (by omega) i hmin hnextYear]
    simp only [Computed, hmin, hreckoned, true_and]
  · rw [if_neg hmin, if_neg fun h => hmin h.1]
    rfl

end Ranges

theorem periodMonths_yearly (billingCycle : String) : periodMonths billingCycle = 12 ↔ billingCycle = "yearly" := by
  unfold periodMonths
  split <;> simp_all

theorem periodMonths_quarterly (billingCycle : String) : periodMonths billingCycle = 3 ↔ billingCycle = "quarterly" := by
  unfold periodMonths
  split <;> simp_all

theorem periodMonths_pos (billingCycle : String) : 0 < periodMonths billingCycle := by
  have := periodMonths_cases billingCycle
  omega

theorem periodMonths_le (billingCycle : String) : periodMonths billingCycle ≤ 12 := by
  have := periodMonths_cases billingCycle
  omega

/-- three cycles in a row have ends that the code can compute -/
theorem endReckoned_around {k : ℕ} (hk : k = 1 ∨ k = 3 ∨ k = 12) (a : ℕ) (i : ℤ) :
    (∀ j, i - 1 ≤ j → j ≤ i + 1 → EndReckoned k a j) ↔ k = 12 ∨ (k = 1 ∧ a = 1) ∨ 0 ≤ i := by
  constructor
  · intro h
    have h0 := h i (by omega) (by omega)
    have h1 := h (i + 1) (by omega) (by omega)
    have h2 := h (i - 1) (by omega) (by omega)
    rcases hk with rfl | rfl | rfl
    · simp only [EndReckoned, Nat.cast_one, one_mul] at h0 h1 h2
      omega
    · simp only [EndReckoned, Nat.cast_ofNat] at h0 h1 h2
      omega
    · exact Or.inl rfl
  · intro h j hj _
    rcases hk with rfl | rfl | rfl
    · simp only [EndReckoned, Nat.cast_one, one_mul, true_and] at h ⊢
      omega
    · simp only [EndReckoned, Nat.cast_ofNat]
      omega
    · exact Or.inr (Or.inr (Dvd.intro _ rfl))

section Tiles

variable (billingCycle : String) (billingStartDay : Option ℤ)

/-- the code returns the tile of the date, where the dates around it exist and the division is right -/
theorem getCycleRange_eq {d : Date} (hlow : MIN_YEAR ≤ d.year) (hhigh : d.year + 2 ≤ MAX_YEAR) :
    getCycleRange billingCycle billingStartDay d =
      let i := cycleNumber (periodMonths billingCycle) (anchorOf billingStartDay) d
      if Computed (periodMonths billingCycle) (anchorOf billingStartDay) i then
        some (cycleDates (anchorOf_bounds billingStartDay) (periodMonths billingCycle) i)
      else none := by
  have ha := anchorOf_bounds billingStartDay
  by_cases hq : billingCycle = "quarterly"
  · subst hq
    exact getQuarterlyRange_eq ha hlow hhigh
  by_cases hy : billingCycle = "yearly"
  · subst hy
    exact getYearlyRange_eq ha hlow hhigh
  have hk : periodMonths billingCycle = 1 := by
    have := periodMonths_cases billingCycle
    have := mt (periodMonths_yearly billingCycle).1 hy
    have := mt (periodMonths_quarterly billingCycle).1 hq
    omega
  have hcode : getCycleRange billingCycle billingStartDay d = getMonthlyRange (anchorOf billingStartDay) d := by
    unfold getCycleRange
    split <;> simp_all
  rw [hcode, hk]
  exact getMonthlyRange_eq ha hlow hhigh

/-- what is asked of the cycles around a date -/
def Tiled (d : Date) : Prop :=
  ∃ first last, getCycleRange billingCycle billingStartDay d = some (first, last) ∧
    (first.dayNumber ≤ d.dayNumber ∧ d.dayNumber ≤ last.dayNumber) ∧
    (∀ e : Date, first.dayNumber ≤ e.dayNumber → e.dayNumber ≤ last.dayNumber →
      getCycleRange billingCycle billingStartDay e = some (first, last)) ∧
    (∀ e : Date, e.dayNumber = first.dayNumber - 1 → ∃ f, getCycleRange billingCycle billingStartDay e = some (f, e)) ∧
    ∀ e : Date, e.dayNumber = last.dayNumber + 1 → ∃ l, getCycleRange billingCycle billingStartDay e = some (e, l)

/-- the cycle is yearly, or is the natural month, or the date is not before day `anchor` of the year 0 -/
def Reckoned (d : Date) : Prop :=
  billingCycle = "yearly" ∨ (billingCycle ≠ "quarterly" ∧ anchorOf billingStartDay = 1) ∨
    (anchorOf billingStartDay : ℤ) ≤ d.dayNumber + 1

theorem reckoned_iff {d : Date} {i : ℤ}
    (hi : cycleNumber (periodMonths billingCycle) (anchorOf billingStartDay) d = i) :
    Reckoned billingCycle billingStartDay d ↔
      ∀ j, i - 1 ≤ j → j ≤ i + 1 → EndReckoned (periodMonths billingCycle) (anchorOf billingStartDay) j := by
  have ha := anchorOf_bounds billingStartDay
  have hzero := boundary_le_iff (periodMonths_pos billingCycle) ha.2 d 0
  rw [hi, boundary, mul_zero, firstDay_zero] at hzero
  have hdate : (anchorOf billingStartDay : ℤ) ≤ d.dayNumber + 1 ↔ 0 ≤ i := by
    rw [← hzero]
    omega
  have hcases := periodMonths_cases billingCycle
  rw [endReckoned_around hcases, Reckoned, hdate, periodMonths_yearly, ne_eq, ← periodMonths_quarterly,
    ← periodMonths_yearly]
  omega

/-- a date of a tile near that of `d` -/
theorem near_bounds {d e : Date} {i j : ℤ} (hi : cycleNumber (periodMonths billingCycle) (anchorOf billingStartDay) d = i)
    (hj : cycleNumber (periodMonths billingCycle) (anchorOf billingStartDay) e = j) (hle : i - 1 ≤ j) (hge : j ≤ i + 1) :
    d.year - 2 ≤ periodMonths billingCycle * j / 12 ∧ d.year - 2 ≤ e.year ∧ e.year ≤ d.year + 2 := by
  have hk := periodMonths_cases billingCycle
  have hd := cycleNumber_bounds (periodMonths_pos billingCycle) (periodMonths_le billingCycle) (anchorOf billingStartDay) d
  have he := cycleNumber_bounds (periodMonths_pos billingCycle) (periodMonths_le billingCycle) (anchorOf billingStartDay) e
  have hdyear := d.monthIndex_year
  have heyear := e.monthIndex_year
  rw [hi] at hd
  rw [hj] at he
  rcases hk with hk | hk | hk <;> rw [hk] at hd he ⊢ <;> push_cast at * <;> omega

/-- the cycles around a date, when the ends of three of them are within reach -/
theorem tiled_of_ends {d : Date} {i : ℤ} (hlow : MIN_YEAR + 2 ≤ d.year) (hhigh : d.year + 4 ≤ MAX_YEAR)
    (hi : cycleNumber (periodMonths billingCycle) (anchorOf billingStartDay) d = i)
    (hends : ∀ j, i - 1 ≤ j → j ≤ i + 1 → EndReckoned (periodMonths billingCycle) (anchorOf billingStartDay) j) :
    Tiled billingCycle billingStartDay d := by
  have ha := anchorOf_bounds billingStartDay
  have hpos := periodMonths_pos billingCycle
  have hmono := boundary_strictMono hpos (anchorOf billingStartDay)
  -- the code returns the tile of every date near `d`
  have hcode : ∀ (e : Date) (j : ℤ), i - 1 ≤ j → j ≤ i + 1 →
      InTile (boundary (periodMonths billingCycle) (anchorOf billingStartDay)) j e.dayNumber →
      getCycleRange billingCycle billingStartDay e = some (cycleDates ha (periodMonths billingCycle) j) := by
    intro e j hj hj' he
    have hnumber := (inTile_iff hpos ha.2 e j).1 he
    have hyears := near_bounds billingCycle billingStartDay hi hnumber hj hj'
    rw [getCycleRange_eq billingCycle billingStartDay (by omega) (by omega), hnumber]
    exact if_pos ⟨by omega, hends j hj hj'⟩
  have hdtile := (inTile_iff hpos ha.2 d i).2 hi
  have hbefore := hmono (show i - 1 < i by omega)
  have hafter := hmono (show i + 1 < i + 1 + 1 by omega)
  refine ⟨(cycleDates ha _ i).1, (cycleDates ha _ i).2, hcode d i (by omega) (by omega) hdtile, ?_, fun e hfirst hlast => ?_, fun e he => ?_, fun e he => ?_⟩
  · rw [cycleDates_fst, cycleDates_snd]
    unfold InTile at hdtile
    omega
  · rw [cycleDates_fst] at hfirst
    rw [cycleDates_snd] at hlast
    exact hcode e i (by omega) (by omega) ⟨hfirst, by omega⟩
  · rw [cycleDates_fst] at he
    have htile : InTile (boundary (periodMonths billingCycle) (anchorOf billingStartDay)) (i - 1) e.dayNumber := by
      unfold InTile
      rw [sub_add_cancel]
      omega
    refine ⟨(cycleDates ha (periodMonths billingCycle) (i - 1)).1, ?_⟩
    have hlast : (cycleDates ha (periodMonths billingCycle) (i - 1)).2 = e := by
      refine Date.dayNumber_inj ?_
      rw [cycleDates_snd, sub_add_cancel, he]
    rw [hcode e (i - 1) (by omega) (by omega) htile, ← hlast]
  · rw [cycleDates_snd, sub_add_cancel] at he
    have htile : InTile (boundary (periodMonths billingCycle) (anchorOf billingStartDay)) (i + 1) e.dayNumber := by
      unfold InTile
      omega
    refine ⟨(cycleDates ha (periodMonths billingCycle) (i + 1)).2, ?_⟩
    have hfirst : (cycleDates ha (periodMonths billingCycle) (i + 1)).1 = e := by
      refine Date.dayNumber_inj ?_
      rw [cycleDates_fst, he]
    rw [hcode e (i + 1) (by omega) (by omega) htile, ← hfirst]

theorem ends_of_tiled {d : Date} {i : ℤ} (hlow : MIN_YEAR + 2 ≤ d.year) (hhigh : d.year + 4 ≤ MAX_YEAR)
    (hi : cycleNumber (periodMonths billingCycle) (anchorOf billingStartDay) d = i)
    (h : Tiled billingCycle billingStartDay d) :
    ∀ j, i - 1 ≤ j → j ≤ i + 1 → EndReckoned (periodMonths billingCycle) (anchorOf billingStartDay) j := by
  have ha := anchorOf_bounds billingStartDay
  have hpos := periodMonths_pos billingCycle
  have hmono := boundary_strictMono hpos (anchorOf billingStartDay)
  -- what the code returned for a date near `d`, it could compute
  have hback : ∀ (e : Date) (j : ℤ) (r : Date × Date), i - 1 ≤ j → j ≤ i + 1 →
      InTile (boundary (periodMonths billingCycle) (anchorOf billingStartDay)) j e.dayNumber →
      getCycleRange billingCycle billingStartDay e = some r →
      EndReckoned (periodMonths billingCycle) (anchorOf billingStartDay) j ∧
        r = cycleDates ha (periodMonths billingCycle) j := by
    intro e j r hj hj' he hr
    have hnumber := (inTile_iff hpos ha.2 e j).1 he
    have hyears := near_bounds billingCycle billingStartDay hi hnumber hj hj'
    rw [getCycleRange_eq billingCycle billingStartDay (by omega) (by omega), hnumber] at hr
    by_cases hcond : Computed (periodMonths billingCycle) (anchorOf billingStartDay) j
    · rw [if_pos hcond] at hr
      exact ⟨hcond.2, (Option.some.inj hr).symm⟩
    · rw [if_neg hcond] at hr
      cases hr
  obtain ⟨first, last, hd, -, -, hprev, hnext⟩ := h
  have hbefore := hmono (show i - 1 < i by omega)
  have hafter := hmono (show i + 1 < i + 1 + 1 by omega)
  obtain ⟨hend, heq⟩ := hback d i _ (by omega) (by omega) ((inTile_iff hpos ha.2 d i).2 hi) hd
  have hfirst : first.dayNumber = boundary (periodMonths billingCycle) (anchorOf billingStartDay) i := by
    rw [← cycleDates_fst ha, ← heq]
  have hlast : last.dayNumber = boundary (periodMonths billingCycle) (anchorOf billingStartDay) (i + 1) - 1 := by
    rw [← cycleDates_snd ha, ← heq]
  obtain ⟨f, hf⟩ := hprev (Date.ofDayNumber _) (Date.dayNumber_ofDayNumber _)
  obtain ⟨l, hl⟩ := hnext (Date.ofDayNumber _) (Date.dayNumber_ofDayNumber _)
  have hprevEnd := (hback _ (i - 1) _ (by omega) (by omega) (by
    rw [Date.dayNumber_ofDayNumber, hfirst]
    unfold InTile
    rw [sub_add_cancel]
    omega) hf).1
  have hnextEnd := (hback _ (i + 1) _ (by omega) (by omega) (by
    rw [Date.dayNumber_ofDayNumber, hlast]
    unfold InTile
    omega) hl).1
  intro j hj hj'
  obtain rfl | rfl | rfl : j = i - 1 ∨ j = i ∨ j = i + 1 := by omega
  · exact hprevEnd
  · exact hend
  · exact hnextEnd

theorem tiled_iff {d : Date} (hlow : MIN_YEAR + 2 ≤ d.year) (hhigh : d.year + 4 ≤ MAX_YEAR) :
    Tiled billingCycle billingStartDay d ↔ Reckoned billingCycle billingStartDay d := by
  rw [reckoned_iff billingCycle billingStartDay rfl]
  exact ⟨ends_of_tiled billingCycle billingStartDay hlow hhigh rfl, tiled_of_ends billingCycle billingStartDay hlow hhigh rfl⟩

/-! ## The history -/

/-- the ranges of `count` cycles, from cycle `i` on backwards -/
def tilesBack (i : ℤ) (count : ℕ) : List (Date × Date) :=
  (List.range count).map fun j : ℕ => cycleDates (anchorOf_bounds billingStartDay) (periodMonths billingCycle) (i - j)

theorem tilesBack_succ (i : ℤ) (count : ℕ) :
    tilesBack billingCycle billingStartDay i (count + 1) =
      cycleDates (anchorOf_bounds billingStartDay) (periodMonths billingCycle) i ::
        tilesBack billingCycle billingStartDay (i - 1) count := by
  unfold tilesBack
  rw [List.range_succ_eq_map, List.map_cons, List.map_map, Nat.cast_zero, sub_zero]
  congr 2
  funext j
  rw [Function.comp_apply]
  congr 1
  push_cast
  ring

/-- the code walks on as long as the cycles can be computed -/
theorem cyclesBack_eq (count : ℕ) {i : ℤ} (hhigh : periodMonths billingCycle * i / 12 + 2 ≤ MAX_YEAR) :
    cyclesBack billingCycle billingStartDay count
        (cycleDates (anchorOf_bounds billingStartDay) (periodMonths billingCycle) i) =
      if ∀ j < count, Computed (periodMonths billingCycle) (anchorOf billingStartDay) (i - 1 - (j : ℕ)) then
        some (tilesBack billingCycle billingStartDay i count)
      else none := by
  have ha := anchorOf_bounds billingStartDay
  have hpos := periodMonths_pos billingCycle
  induction count generalizing i with
  | zero =>
    rw [if_pos fun j hj => absurd hj (Nat.not_lt_zero j)]
    rfl
  | succ count ih =>
    -- the day before the cycle
    set e := Date.ofDayNumber ((cycleDates ha (periodMonths billingCycle) i).1.dayNumber + -1) with he
    have hnumber : e.dayNumber = (cycleDates ha (periodMonths billingCycle) i).1.dayNumber + -1 :=
      Date.dayNumber_ofDayNumber _
    have hcycle : cycleNumber (periodMonths billingCycle) (anchorOf billingStartDay) e = i - 1 := by
      have hbefore := boundary_strictMono hpos (anchorOf billingStartDay) (show i - 1 < i by omega)
      rw [← inTile_iff hpos ha.2, hnumber, cycleDates_fst]
      unfold InTile
      rw [sub_add_cancel]
      omega
    have hbounds := cycleNumber_bounds hpos (periodMonths_le billingCycle) (anchorOf billingStartDay) e
    rw [hcycle, sub_add_cancel] at hbounds
    have hyear := e.monthIndex_year
    have hsplit : (∀ j < count + 1, Computed (periodMonths billingCycle) (anchorOf billingStartDay) (i - 1 - (j : ℕ))) ↔
        Computed (periodMonths billingCycle) (anchorOf billingStartDay) (i - 1) ∧
          ∀ j < count, Computed (periodMonths billingCycle) (anchorOf billingStartDay) (i - 1 - 1 - (j : ℕ)) := by
      have hindex : ∀ j : ℕ, i - 1 - ((j + 1 : ℕ) : ℤ) = i - 1 - 1 - (j : ℕ) := fun j => by push_cast; ring
      simp only [Nat.forall_lt_succ_left, Nat.cast_zero, sub_zero, hindex]
    unfold cyclesBack
    rw [addDays_eq hnumber]
    simp only [hsplit]
    by_cases hcond : Computed (periodMonths billingCycle) (anchorOf billingStartDay) (i - 1)
    · have hmin := hcond.1
      have hin : MIN_YEAR ≤ e.year := by omega
      have hback := ih (i := i - 1) (by omega)
      rw [if_pos ⟨hin, by omega⟩, Option.bind_eq_bind, Option.bind_some,
        getCycleRange_eq billingCycle billingStartDay hin (by omega), hcycle, if_pos hcond, Option.bind_eq_bind,
        Option.bind_some, hback, tilesBack_succ]
      simp only [hcond, true_and]
      split_ifs
      · rfl
      · rfl
    · simp only [hcond, false_and, if_false]
      by_cases hin : MIN_YEAR ≤ e.year ∧ e.year ≤ MAX_YEAR
      · rw [if_pos hin, Option.bind_eq_bind, Option.bind_some,
          getCycleRange_eq billingCycle billingStartDay hin.1 (by omega), hcycle, if_neg hcond]
        rfl
      · rw [if_neg hin]
        rfl

/-- the cycles that the history walks through can be computed -/
def HistoryComputed (today : Date) (count : ℕ) : Prop :=
  ∀ j ≤ count, Computed (periodMonths billingCycle) (anchorOf billingStartDay)
    (cycleNumber (periodMonths billingCycle) (anchorOf billingStartDay) today - (j : ℕ))

theorem historyRanges_eq {today : Date} (count : ℕ) (hlow : MIN_YEAR ≤ today.year) (hhigh : today.year + 4 ≤ MAX_YEAR)
    [Decidable (HistoryComputed billingCycle billingStartDay today count)] :
    historyRanges billingCycle billingStartDay today count =
      if HistoryComputed billingCycle billingStartDay today count then
        some (tilesBack billingCycle billingStartDay
          (cycleNumber (periodMonths billingCycle) (anchorOf billingStartDay) today) count)
      else none := by
  have hbounds := cycleNumber_bounds (periodMonths_pos billingCycle) (periodMonths_le billingCycle)
    (anchorOf billingStartDay) today
  have hyear := today.monthIndex_year
  rw [historyRanges, getCycleRange_eq billingCycle billingStartDay hlow (by omega)]
  set i := cycleNumber (periodMonths billingCycle) (anchorOf billingStartDay) today with hi
  have hsplit : HistoryComputed billingCycle billingStartDay today count ↔
      Computed (periodMonths billingCycle) (anchorOf billingStartDay) i ∧
        ∀ j < count, Computed (periodMonths billingCycle) (anchorOf billingStartDay) (i - 1 - (j : ℕ)) := by
    have hindex : ∀ j : ℕ, i - ((j + 1 : ℕ) : ℤ) = i - 1 - (j : ℕ) := fun j => by push_cast; ring
    simp only [HistoryComputed, ← hi, ← Nat.lt_succ_iff, Nat.succ_eq_add_one, Nat.forall_lt_succ_left, Nat.cast_zero,
      sub_zero, hindex]
  simp only [hsplit]
  by_cases hcond : Computed (periodMonths billingCycle) (anchorOf billingStartDay) i
  · simp only [hcond, if_true, true_and]
    exact cyclesBack_eq billingCycle billingStartDay count (by omega)
  · simp only [hcond, false_and, if_false]
    rfl

/-- contiguous ranges that go backwards from the one of `today` -/
def Backwards (today : Date) (ranges : List (Date × Date)) : Prop :=
  (∀ r ∈ ranges.head?, r.1.dayNumber ≤ today.dayNumber ∧ today.dayNumber ≤ r.2.dayNumber) ∧
    (∀ r ∈ ranges, r.1.dayNumber ≤ r.2.dayNumber) ∧
    ranges.IsChain fun r previous => previous.2.dayNumber + 1 = r.1.dayNumber

theorem tilesBack_chain (i : ℤ) (count : ℕ) :
    (tilesBack billingCycle billingStartDay i count).IsChain fun r previous =>
      previous.2.dayNumber + 1 = r.1.dayNumber := by
  induction count generalizing i with
  | zero => exact List.IsChain.nil
  | succ count ih =>
    cases count with
    | zero => exact List.IsChain.singleton _
    | succ count =>
      have hrest := ih (i - 1)
      rw [tilesBack_succ] at hrest
      rw [tilesBack_succ, tilesBack_succ, List.isChain_cons_cons]
      refine ⟨?_, hrest⟩
      rw [cycleDates_snd, cycleDates_fst, sub_add_cancel, sub_add_cancel]

theorem tilesBack_backwards (today : Date) (count : ℕ) :
    Backwards today (tilesBack billingCycle billingStartDay
      (cycleNumber (periodMonths billingCycle) (anchorOf billingStartDay) today) count) := by
  have ha := anchorOf_bounds billingStartDay
  have hpos := periodMonths_pos billingCycle
  have hmono := boundary_strictMono hpos (anchorOf billingStartDay)
  have htile := (inTile_iff hpos ha.2 today _).2 rfl
  set i := cycleNumber (periodMonths billingCycle) (anchorOf billingStartDay) today
  refine ⟨fun r hr => ?_, fun r hr => ?_, ?_⟩
  · cases count with
    | zero => cases hr
    | succ count =>
      rw [tilesBack_succ] at hr
      obtain rfl := Option.some.inj hr
      rw [cycleDates_fst, cycleDates_snd]
      unfold InTile at htile
      omega
  · obtain ⟨j, -, rfl⟩ := List.mem_map.1 hr
    rw [cycleDates_fst, cycleDates_snd]
    have := hmono (show i - (j : ℤ) < i - j + 1 by omega)
    omega
  · exact tilesBack_chain billingCycle billingStartDay i count

/-- **Billing cycles tile the calendar.** Around a date away from the ends of chrono's range the cycles are the tiles of the
calendar exactly when the date is not before the year 0, unless the cycle is yearly or the natural month. The history
lists contiguous cycles backwards exactly when each of them can be computed. -/
theorem billing_cycles_tile {d : Date} (hlow : MIN_YEAR + 2 ≤ d.year) (hhigh : d.year + 4 ≤ MAX_YEAR) :
    (Tiled billingCycle billingStartDay d ↔ Reckoned billingCycle billingStartDay d) ∧
      ∀ count, (∃ ranges, historyRanges billingCycle billingStartDay d count = some ranges ∧ ranges.length = count ∧
        Backwards d ranges) ↔ HistoryComputed billingCycle billingStartDay d count := by
  classical
  refine ⟨tiled_iff billingCycle billingStartDay hlow hhigh, fun count => ?_⟩
  rw [historyRanges_eq billingCycle billingStartDay count (by omega) hhigh]
  constructor
  · rintro ⟨ranges, hsome, -⟩
    by_contra hno
    rw [if_neg hno] at hsome
    cases hsome
  · intro h
    exact ⟨_, if_pos h, by simp [tilesBack], tilesBack_backwards billingCycle billingStartDay d count⟩

end Tiles

def leapDay : Date := ⟨2024, 2, 29, by decide, by decide, by decide, by decide⟩

theorem billing_cycles_tile_leapDay : Tiled "monthly" (some 31) leapDay ∧
    ∃ ranges, historyRanges "monthly" (some 31) leapDay 3 = some ranges ∧ ranges.length = 3 ∧ Backwards leapDay ranges := by
  have h := billing_cycles_tile "monthly" (some 31) (d := leapDay) (by decide) (by decide)
  refine ⟨h.1.2 (Or.inr (Or.inr (by decide +kernel))), (h.2 3).2 fun j hj => ?_⟩
  interval_cases j <;> decide +kernel

def bce : Date := ⟨-1, 5, 20, by decide, by decide, by decide, by decide⟩

/-- in the year -1, the cycle that began on May 15 is asked for its end -/
theorem no_cycle_before_year_zero :
    getCycleRange "monthly" (some 15) bce = none ∧
      ¬ ∀ (billingCycle : String) (billingStartDay : Option ℤ) (d : Date), MIN_YEAR + 2 ≤ d.year → d.year + 4 ≤ MAX_YEAR →
        Tiled billingCycle billingStartDay d := by
  have hpanic : getCycleRange "monthly" (some 15) bce = none := by
    have hnumber : cycleNumber (periodMonths "monthly") (anchorOf (some 15)) bce = -8 := by decide +kernel
    rw [getCycleRange_eq "monthly" (some 15) (by decide) (by decide), hnumber]
    exact if_neg (by decide +kernel)
  refine ⟨hpanic, fun h => ?_⟩
  obtain ⟨first, last, hsome, -⟩ := h "monthly" (some 15) bce (by decide) (by decide)
  rw [hpanic] at hsome
  cases hsome

end ServerBee.Cycles
