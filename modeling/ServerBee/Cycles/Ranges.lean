/-
Billing cycles as ranges of dates (`service/traffic.rs`: `get_cycle_range`, `get_monthly_range`, `get_quarterly_range`,
`get_yearly_range`, `add_months`, `days_in_month`).

Dates are chrono's: those of the proleptic Gregorian calendar whose year lies between `MIN_YEAR` and `MAX_YEAR`. A function
that panics has no result, and `as u32` takes a number modulo 2^32. The i32 arithmetic stays far below 2^31.
-/
import ServerBee.Lib.Calendar

namespace ServerBee.Cycles

open ServerBee.Lib.Calendar

/-! ## chrono -/

def MIN_YEAR : ℤ := -262143

def MAX_YEAR : ℤ := 262142

/-- `NaiveDate::from_ymd_opt` -/
def fromYmdOpt (year : ℤ) (month day : ℕ) : Option Date :=
  if h : (MIN_YEAR ≤ year ∧ year ≤ MAX_YEAR) ∧ (1 ≤ month ∧ month ≤ 12) ∧ 1 ≤ day ∧ day ≤ Lib.Calendar.daysInMonth year month then
    some ⟨year, month, day, h.2.1.1, h.2.1.2, h.2.2.1, h.2.2.2⟩
  else none

/-- `date + Duration::days(n)` -/
def addDays (date : Date) (n : ℤ) : Option Date :=
  let moved := Date.ofDayNumber (date.dayNumber + n)
  if MIN_YEAR ≤ moved.year ∧ moved.year ≤ MAX_YEAR then some moved else none

def asU32 (n : ℤ) : ℕ := (n % 4294967296).toNat

/-! ## Ranges -/

def daysInMonth (year : ℤ) (month : ℕ) : Option ℕ := do
  let next ← fromYmdOpt (if month = 12 then year + 1 else year) (if month = 12 then 1 else asU32 (month + 1)) 1
  let last ← addDays next (-1)
  pure last.day

def addMonths (date : Date) (months : ℕ) : Option Date := do
  let totalMonths := date.year * 12 + date.month - 1 + months
  let y := totalMonths.tdiv 12
  let m := totalMonths.tmod 12 + 1
  let length ← daysInMonth y (asU32 m)
  fromYmdOpt y (asU32 m) (min date.day length)

/-- `cycle_start` of a month -/
def monthlyStart (anchor : ℕ) (today : Date) : Option Date :=
  if anchor ≤ today.day then fromYmdOpt today.year today.month anchor
  else do
    let prev ← addDays today (-today.day)
    fromYmdOpt prev.year prev.month anchor

/-- the first day of the next month -/
def nextMonth (cycleStart : Date) : Option Date :=
  if cycleStart.month = 12 then fromYmdOpt (cycleStart.year + 1) 1 1
  else fromYmdOpt cycleStart.year (cycleStart.month + 1) 1

/-- `cycle_end` of a month -/
def monthlyEnd (anchor : ℕ) (cycleStart : Date) : Option Date := do
  let next ← if anchor = 1 then nextMonth cycleStart else addMonths cycleStart 1
  addDays next (-1)

def getMonthlyRange (anchor : ℕ) (today : Date) : Option (Date × Date) := do
  let cycleStart ← monthlyStart anchor today
  let cycleEnd ← monthlyEnd anchor cycleStart
  pure (cycleStart, cycleEnd)

def quarterStartMonths : List ℕ := [1, 4, 7, 10]

/-- the last quarter of this year that has begun, or the last one of the year before -/
def quarterlyStart (anchor : ℕ) (today : Date) : Option Date :=
  let candidate := quarterStartMonths.reverse.findSome? fun qm =>
    (fromYmdOpt today.year qm anchor).filter fun c => c.dayNumber ≤ today.dayNumber
  match candidate with
  | some c => some c
  | none => fromYmdOpt (today.year - 1) 10 anchor

/-- the cycle of `months` months that begins at `start` -/
def rangeFrom (start : Date) (months : ℕ) : Option (Date × Date) := do
  let next ← addMonths start months
  let last ← addDays next (-1)
  pure (start, last)

def getQuarterlyRange (anchor : ℕ) (today : Date) : Option (Date × Date) := do
  let cycleStart ← quarterlyStart anchor today
  rangeFrom cycleStart 3

def getYearlyRange (anchor : ℕ) (today : Date) : Option (Date × Date) := do
  let start ← fromYmdOpt today.year 1 anchor
  if start.dayNumber ≤ today.dayNumber then rangeFrom start 12
  else do
    let start ← fromYmdOpt (today.year - 1) 1 anchor
    rangeFrom start 12

/-- `billing_start_day.unwrap_or(1).clamp(1, 28)` -/
def anchorOf (billingStartDay : Option ℤ) : ℕ := (max 1 (min (billingStartDay.getD 1) 28)).toNat

def getCycleRange (billingCycle : String) (billingStartDay : Option ℤ) (today : Date) : Option (Date × Date) :=
  let anchor := anchorOf billingStartDay
  match billingCycle with
  | "quarterly" => getQuarterlyRange anchor today
  | "yearly" => getYearlyRange anchor today
  | _ => getMonthlyRange anchor today

/-- the ranges that `cycle_history` walks through: `count` from the current one on backwards -/
def cyclesBack (billingCycle : String) (billingStartDay : Option ℤ) : ℕ → Date × Date → Option (List (Date × Date))
  | 0, _ => some []
  | count + 1, (first, last) => do
    let prevDay ← addDays first (-1)
    let prev ← getCycleRange billingCycle billingStartDay prevDay
    let rest ← cyclesBack billingCycle billingStartDay count prev
    pure ((first, last) :: rest)

def historyRanges (billingCycle : String) (billingStartDay : Option ℤ) (today : Date) (count : ℕ) :
    Option (List (Date × Date)) := do
  let current ← getCycleRange billingCycle billingStartDay today
  cyclesBack billingCycle billingStartDay count current

end ServerBee.Cycles
