/-
The proleptic Gregorian calendar.

Months are numbered through: month `12 * year + (month - 1)`. `firstDay M` is the number of the first day of month `M`,
with 0000-01-01 as day 0; it is strictly increasing and repeats with period 4800 months, 146097 days. A `Date` is valid by
construction, `dayNumber` and `ofDayNumber` are inverse to each other, and dates of an earlier month have smaller day
numbers.
-/
import Mathlib.Tactic

namespace ServerBee.Lib.Calendar

def isLeap (year : ℤ) : Bool := year % 4 == 0 && (year % 100 != 0 || year % 400 == 0)

/-- leap years among the years 0, .., year - 1 are counted once each -/
def daysBeforeYear (year : ℤ) : ℤ := 365 * year + (year + 3) / 4 - (year + 99) / 100 + (year + 399) / 400

def daysInMonth (year : ℤ) (month : ℕ) : ℕ :=
  match month with
  | 2 => if isLeap year then 29 else 28
  | 4 | 6 | 9 | 11 => 30
  | _ => 31

/-- days of a year before its month `m` (0 to 11) -/
def daysBeforeMonth (year : ℤ) (m : ℕ) : ℕ := ((List.range m).map fun k => daysInMonth year (k + 1)).sum

def firstDay (M : ℤ) : ℤ := daysBeforeYear (M / 12) + daysBeforeMonth (M / 12) (M % 12).toNat

def monthLength (M : ℤ) : ℕ := daysInMonth (M / 12) ((M % 12).toNat + 1)

/-! ## Months -/

theorem daysInMonth_bounds (year : ℤ) (month : ℕ) : 28 ≤ daysInMonth year month ∧ daysInMonth year month ≤ 31 := by
  unfold daysInMonth
  split
  · split_ifs <;> omega
  · omega
  · omega
  · omega
  · omega
  · omega

theorem daysBeforeMonth_succ (year : ℤ) (m : ℕ) :
    daysBeforeMonth year (m + 1) = daysBeforeMonth year m + daysInMonth year (m + 1) := by
  simp [daysBeforeMonth, List.range_succ]

theorem daysBeforeMonth_twelve (year : ℤ) : daysBeforeMonth year 12 = if isLeap year then 366 else 365 := by
  simp only [daysBeforeMonth, List.range, List.range.loop, List.map_cons, List.map_nil, List.sum_cons, List.sum_nil,
    daysInMonth]
  split_ifs <;> rfl

theorem daysBeforeYear_succ (year : ℤ) :
    daysBeforeYear (year + 1) = daysBeforeYear year + if isLeap year then 366 else 365 := by
  have h4 : (year + 1 + 3) / 4 = (year + 3) / 4 + if year % 4 = 0 then 1 else 0 := by split_ifs <;> omega
  have h100 : (year + 1 + 99) / 100 = (year + 99) / 100 + if year % 100 = 0 then 1 else 0 := by split_ifs <;> omega
  have h400 : (year + 1 + 399) / 400 = (year + 399) / 400 + if year % 400 = 0 then 1 else 0 := by split_ifs <;> omega
  simp only [daysBeforeYear, isLeap, h4, h100, h400, Bool.and_eq_true, Bool.or_eq_true, beq_iff_eq, bne_iff_ne]
  split_ifs <;> omega

theorem firstDay_succ (M : ℤ) : firstDay (M + 1) = firstDay M + monthLength M := by
  unfold firstDay monthLength
  by_cases hlast : M % 12 = 11
  · -- December: the next month opens a year
    have hyear : (M + 1) / 12 = M / 12 + 1 := by omega
    have hmonth : (M + 1) % 12 = 0 := by omega
    have htwelve : daysBeforeMonth (M / 12) 11 + daysInMonth (M / 12) 12 = if isLeap (M / 12) then 366 else 365 := by
      rw [← daysBeforeMonth_twelve]
      exact (daysBeforeMonth_succ (M / 12) 11).symm
    rw [hyear, hmonth, hlast, daysBeforeYear_succ]
    simp only [Int.toNat_zero, daysBeforeMonth, List.range_zero, List.map_nil, List.sum_nil, Nat.cast_zero]
    change _ = _ + ((daysBeforeMonth (M / 12) 11 : ℕ) : ℤ) + ((daysInMonth (M / 12) 12 : ℕ) : ℤ)
    split_ifs at htwelve ⊢ <;> omega
  · have hyear : (M + 1) / 12 = M / 12 := by omega
    have hmonth : ((M + 1) % 12).toNat = (M % 12).toNat + 1 := by omega
    rw [hyear, hmonth, daysBeforeMonth_succ]
    push_cast
    ring

theorem monthLength_bounds (M : ℤ) : 28 ≤ monthLength M ∧ monthLength M ≤ 31 := daysInMonth_bounds _ _

theorem firstDay_add (M : ℤ) (k : ℕ) : firstDay M + 28 * k ≤ firstDay (M + k) := by
  induction k with
  | zero => simp
  | succ k ih =>
    have h1 := firstDay_succ (M + k)
    have h2 := (monthLength_bounds (M + k)).1
    push_cast at *
    rw [← add_assoc, h1]
    omega

theorem firstDay_mono {M N : ℤ} (h : M ≤ N) : firstDay M ≤ firstDay N := by
  obtain ⟨k, rfl⟩ := Int.le.dest h
  have := firstDay_add M k
  omega

/-- the calendar repeats after four hundred years -/
theorem firstDay_period (M c : ℤ) : firstDay (M + 4800 * c) = firstDay M + 146097 * c := by
  have hyear : (M + 4800 * c) / 12 = M / 12 + 400 * c := by omega
  have hmonth : (M + 4800 * c) % 12 = M % 12 := by omega
  have hleap : ∀ y : ℤ, isLeap (y + 400 * c) = isLeap y := by
    intro y
    have h4 : (y + 400 * c) % 4 = y % 4 := by omega
    have h100 : (y + 400 * c) % 100 = y % 100 := by omega
    have h400 : (y + 400 * c) % 400 = y % 400 := by omega
    simp only [isLeap, h4, h100, h400]
  have hdays : ∀ (y : ℤ) (m : ℕ), daysBeforeMonth (y + 400 * c) m = daysBeforeMonth y m := by
    intro y m
    simp only [daysBeforeMonth, daysInMonth, hleap]
  have hbefore : ∀ y : ℤ, daysBeforeYear (y + 400 * c) = daysBeforeYear y + 146097 * c := by
    intro y
    simp only [daysBeforeYear]
    omega
  simp only [firstDay, hyear, hmonth, hdays, hbefore]
  ring

/-! ## Dates -/

@[ext] structure Date where
  year : ℤ
  month : ℕ
  day : ℕ
  month_pos : 1 ≤ month
  month_le : month ≤ 12
  day_pos : 1 ≤ day
  day_le : day ≤ daysInMonth year month
deriving DecidableEq

def Date.monthIndex (d : Date) : ℤ := 12 * d.year + (d.month - 1 : ℕ)

def Date.dayNumber (d : Date) : ℤ := firstDay d.monthIndex + (d.day - 1 : ℕ)

theorem Date.monthIndex_year (d : Date) : d.monthIndex / 12 = d.year := by
  have := d.month_pos
  have := d.month_le
  unfold Date.monthIndex
  omega

theorem Date.monthIndex_month (d : Date) : (d.monthIndex % 12).toNat + 1 = d.month := by
  have := d.month_pos
  have := d.month_le
  unfold Date.monthIndex
  omega

theorem Date.day_le_length (d : Date) : d.day ≤ monthLength d.monthIndex := by
  unfold monthLength
  rw [d.monthIndex_year, d.monthIndex_month]
  exact d.day_le

theorem Date.ext_index {d e : Date} (hm : d.monthIndex = e.monthIndex) (hd : d.day = e.day) : d = e := by
  have hyear := d.monthIndex_year
  have hmonth := d.monthIndex_month
  rw [hm, e.monthIndex_year] at hyear
  rw [hm, e.monthIndex_month] at hmonth
  exact Date.ext hyear.symm hmonth.symm hd

/-- a date lies in its month -/
theorem Date.dayNumber_bounds (d : Date) :
    firstDay d.monthIndex ≤ d.dayNumber ∧ d.dayNumber < firstDay (d.monthIndex + 1) := by
  have h1 := firstDay_succ d.monthIndex
  have h2 := d.day_le_length
  have h3 := d.day_pos
  unfold Date.dayNumber
  omega

theorem Date.dayNumber_lt {d e : Date} (h : d.monthIndex < e.monthIndex) : d.dayNumber < e.dayNumber := by
  have h1 := d.dayNumber_bounds
  have h2 := e.dayNumber_bounds
  have h3 := firstDay_mono (show d.monthIndex + 1 ≤ e.monthIndex by omega)
  omega

theorem Date.dayNumber_inj {d e : Date} (h : d.dayNumber = e.dayNumber) : d = e := by
  have hm : d.monthIndex = e.monthIndex := by
    rcases lt_trichotomy d.monthIndex e.monthIndex with hlt | heq | hlt
    · have := Date.dayNumber_lt hlt
      omega
    · exact heq
    · have := Date.dayNumber_lt hlt
      omega
  refine Date.ext_index hm ?_
  have h1 := d.day_pos
  have h2 := e.day_pos
  unfold Date.dayNumber at h
  rw [hm] at h
  omega

/-- the date of a month and a day of it -/
def Date.ofIndex (M : ℤ) (day : ℕ) (hpos : 1 ≤ day) (hle : day ≤ monthLength M) : Date where
  year := M / 12
  month := (M % 12).toNat + 1
  day := day
  month_pos := by omega
  month_le := by omega
  day_pos := hpos
  day_le := hle

@[simp] theorem Date.ofIndex_day (M : ℤ) (day : ℕ) (hpos : 1 ≤ day) (hle : day ≤ monthLength M) :
    (Date.ofIndex M day hpos hle).day = day := rfl

@[simp] theorem Date.ofIndex_monthIndex (M : ℤ) (day : ℕ) (hpos : 1 ≤ day) (hle : day ≤ monthLength M) :
    (Date.ofIndex M day hpos hle).monthIndex = M := by
  simp only [Date.ofIndex, Date.monthIndex]
  omega

/-! ## The date of a day number -/

/-- the year within its cycle of four hundred, from the day within the cycle -/
def yearOfCycle (r : ℤ) : ℕ := Nat.findGreatest (fun y => firstDay (12 * (y : ℤ)) ≤ r) 399

def monthOfYear (y : ℕ) (r : ℤ) : ℕ := Nat.findGreatest (fun m => firstDay (12 * (y : ℤ) + m) ≤ r) 11

/-- the month that a day lies in -/
def monthOfDay (n : ℤ) : ℤ :=
  4800 * (n / 146097) + 12 * (yearOfCycle (n % 146097)) + monthOfYear (yearOfCycle (n % 146097)) (n % 146097)

theorem firstDay_zero : firstDay 0 = 0 := by decide

theorem firstDay_cycle : firstDay 4800 = 146097 := by decide

theorem monthOfDay_bounds (n : ℤ) : firstDay (monthOfDay n) ≤ n ∧ n < firstDay (monthOfDay n + 1) := by
  have hr0 : 0 ≤ n % 146097 := Int.emod_nonneg _ (by norm_num)
  have hr1 : n % 146097 < 146097 := Int.emod_lt_of_pos _ (by norm_num)
  set r := n % 146097 with hr
  set y := yearOfCycle r with hy
  set m := monthOfYear y r with hm
  -- the day is in year y of its cycle
  have hyle : y ≤ 399 := Nat.findGreatest_le 399
  have hylow : firstDay (12 * (y : ℤ)) ≤ r :=
    Nat.findGreatest_spec (P := fun y : ℕ => firstDay (12 * (y : ℤ)) ≤ r) (Nat.zero_le 399)
      (by simpa [firstDay_zero] using hr0)
  have hyhigh : r < firstDay (12 * (y : ℤ) + 12) := by
    by_cases hy399 : y = 399
    · rw [hy399]
      norm_num [firstDay_cycle]
      exact hr1
    · have hnot := Nat.findGreatest_is_greatest (P := fun y : ℕ => firstDay (12 * (y : ℤ)) ≤ r) (n := 399)
        (show y < y + 1 by omega) (by omega)
      push_cast at hnot
      rw [mul_add, mul_one] at hnot
      omega
  -- and in month m of that year
  have hmlow : firstDay (12 * (y : ℤ) + m) ≤ r :=
    Nat.findGreatest_spec (P := fun m : ℕ => firstDay (12 * (y : ℤ) + m) ≤ r) (Nat.zero_le 11) (by simpa using hylow)
  have hmle : m ≤ 11 := Nat.findGreatest_le 11
  have hmhigh : r < firstDay (12 * (y : ℤ) + m + 1) := by
    by_cases hm11 : m = 11
    · rw [hm11]
      push_cast
      rw [add_assoc]
      exact hyhigh
    · have hnot := Nat.findGreatest_is_greatest (P := fun m : ℕ => firstDay (12 * (y : ℤ) + m) ≤ r) (n := 11)
        (show m < m + 1 by omega) (by omega)
      push_cast at hnot
      rw [← add_assoc] at hnot
      omega
  have hn : n = r + 146097 * (n / 146097) := by omega
  have hM : monthOfDay n = 12 * (y : ℤ) + m + 4800 * (n / 146097) := by
    simp only [monthOfDay, ← hr, ← hy, ← hm]
    ring
  have hM1 : monthOfDay n + 1 = 12 * (y : ℤ) + m + 1 + 4800 * (n / 146097) := by
    rw [hM]
    ring
  rw [hM1, hM, firstDay_period, firstDay_period]
  omega

/-- the date of a day number -/
def Date.ofDayNumber (n : ℤ) : Date :=
  Date.ofIndex (monthOfDay n) (n - firstDay (monthOfDay n) + 1).toNat (by have := (monthOfDay_bounds n).1; omega)
    (by
      have h1 := (monthOfDay_bounds n).1
      have h2 := (monthOfDay_bounds n).2
      rw [firstDay_succ] at h2
      omega)

@[simp] theorem Date.dayNumber_ofDayNumber (n : ℤ) : (Date.ofDayNumber n).dayNumber = n := by
  have h := (monthOfDay_bounds n).1
  simp only [Date.dayNumber, Date.ofDayNumber, Date.ofIndex_monthIndex, Date.ofIndex_day]
  omega

@[simp] theorem Date.ofDayNumber_dayNumber (d : Date) : Date.ofDayNumber d.dayNumber = d :=
  Date.dayNumber_inj (Date.dayNumber_ofDayNumber _)

end ServerBee.Lib.Calendar
