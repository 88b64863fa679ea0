/-
The billing calendar of a server (`service/renewal.rs`).

Instants and local times are ℤ, nanoseconds from 1970-01-01; dates are `Calendar.Date`, of which chrono represents the
years `minYear` to `maxYear`. Occurrence ids are ℕ: `fresh` is the first id not yet drawn, and a function draws the ids
`fresh`, `fresh + 1`, .. in the order of its `Uuid::new_v4` calls. What third-party crates decide (the time zone database,
parsing and printing of dates) is a parameter `Crates`.

The i32 arithmetic of `advance` cannot overflow: the loop ends at the first candidate past `maxYear`.
-/
import ServerBee.Lib.Calendar
import ServerBee.Lib.LocalTime

namespace ServerBee.Renewal

open ServerBee.Lib ServerBee.Lib.Calendar

/-! ## Dates and instants -/

def minute : ℤ := 60000000000
def dayNanos : ℤ := 86400000000000

/-- `NaiveDate::MIN.year()`, `NaiveDate::MAX.year()` -/
def minYear : ℤ := -262143
def maxYear : ℤ := 262142

/-- the day number of 1970-01-01 -/
def unixEpoch : ℤ := 719528

structure Crates where
  /-- `str::parse::<Tz>` -/
  zone : String → Option Zone
  /-- `NaiveDate::parse_from_str(s, "%Y-%m-%d")` -/
  parseDate : String → Option Date
  /-- `NaiveDate::to_string` -/
  printDate : Date → String

def midnight (d : Date) : ℤ := (d.dayNumber - unixEpoch) * dayNanos

/-- `NaiveDateTime::date` -/
def dateAt (l : ℤ) : Date := Date.ofDayNumber (l / dayNanos + unixEpoch)

def fromYmdOpt (year : ℤ) (month day : ℕ) : Option Date :=
  if h : (minYear ≤ year ∧ year ≤ maxYear) ∧ (1 ≤ month ∧ month ≤ 12) ∧ 1 ≤ day ∧ day ≤ daysInMonth year month then
    some ⟨year, month, day, h.2.1.1, h.2.1.2, h.2.2.1, h.2.2.2⟩
  else none

def succOpt (d : Date) : Option Date :=
  let next := Date.ofDayNumber (d.dayNumber + 1)
  if next.year ≤ maxYear then some next else none

/-- the local date of a deadline in a time zone -/
def selectedDate (C : Crates) (deadline : Option ℤ) (timezone : String) : Option Date :=
  match C.zone timezone with
  | none => none
  | some z => deadline.map fun instant => dateAt (z.clock instant)

/-- the last nanosecond of a local date; `none` when no minute of the date occurs in the time zone -/
def representableDateBoundary (C : Crates) (date : Date) (timezone : String) : Except String (Option ℤ) :=
  match C.zone timezone with
  | none => .error "billing_timezone must be a valid IANA timezone"
  | some z =>
    if (List.range 1440).any fun m => (z.earliest (midnight date + m * minute)).isSome then
      match succOpt date with
      | none => .error "expiry_date is out of range"
      | some next =>
        match (List.range 1441).findSome? fun m : ℕ => z.earliest (midnight next + m * minute) with
        | some boundary => .ok (some (boundary - 1))
        | none => .error "expiry_date has no valid local boundary"
    else .ok none

def dateBoundary (C : Crates) (date : Date) (timezone : String) : Except String ℤ :=
  match representableDateBoundary C date timezone with
  | .error e => .error e
  | .ok none => .error "expiry_date does not exist in billing_timezone"
  | .ok (some boundary) => .ok boundary

/-- `.map(|d| date_boundary(d, ..)).transpose()` -/
def boundaryOf (C : Crates) (date : Option Date) (timezone : String) : Except String (Option ℤ) :=
  match date with
  | none => .ok none
  | some d => (dateBoundary C d timezone).map some

/-! ## Catch-up -/

inductive DeadlineOrigin where
  | confirmed
  | projected
  | frozen
deriving DecidableEq, Repr

structure RenewalState where
  enabled : Bool
  deadlineOrigin : DeadlineOrigin
  anchorDay : Option ℕ
  occurrenceId : Option ℕ
  billingTimezone : String
  confirmedExpiredAt : Option ℤ
deriving DecidableEq, Repr

/-- the billing cycles with a renewal interval -/
inductive Cycle where
  | monthly
  | quarterly
  | yearly
deriving DecidableEq, Repr

def Cycle.parse (cycle : String) : Option Cycle :=
  if cycle = "monthly" then some .monthly
  else if cycle = "quarterly" then some .quarterly
  else if cycle = "yearly" then some .yearly
  else none

/-- in months -/
def Cycle.interval : Cycle → ℕ
  | .monthly => 1
  | .quarterly => 3
  | .yearly => 12

theorem Cycle.interval_pos (c : Cycle) : 0 < c.interval := by
  cases c <;> decide

def validateEnabled (state : RenewalState) (deadline : Option ℤ) (cycle : Option String) : Except String Unit :=
  if state.enabled = true ∧ (deadline = none ∨ cycle.bind Cycle.parse = none) then
    .error "automatic renewal requires an expiry date and monthly, quarterly or yearly billing_cycle"
  else .ok ()

/-- the anchored date of a month: the day counts down until the date exists -/
def anchoredDate (month : ℤ) : ℕ → Option Date
  | 0 => none
  | day + 1 =>
    match fromYmdOpt (month / 12) ((month % 12).toNat + 1) (day + 1) with
    | some date => some date
    | none => anchoredDate month day

theorem fromYmdOpt_year {year : ℤ} {month day : ℕ} {d : Date} (h : fromYmdOpt year month day = some d) :
    d.year = year ∧ d.month = month ∧ d.day = day ∧ minYear ≤ year ∧ year ≤ maxYear := by
  unfold fromYmdOpt at h
  split_ifs at h with hc
  cases h
  exact ⟨rfl, rfl, rfl, hc.1⟩

theorem anchoredDate_month {month : ℤ} {anchor : ℕ} {d : Date} (h : anchoredDate month anchor = some d) :
    d.monthIndex = month ∧ d.year ≤ maxYear := by
  induction anchor with
  | zero => cases h
  | succ day ih =>
    unfold anchoredDate at h
    split at h
    · rename_i date hdate
      cases h
      obtain ⟨hyear, hmonth, -, -, hmax⟩ := fromYmdOpt_year hdate
      refine ⟨?_, by omega⟩
      unfold Date.monthIndex
      omega
    · exact ih h

/-- the loop of `advance`: the first whole number of cycles, from `periods` on, whose boundary is not before `now` -/
def search (C : Crates) (timezone : String) (date : Date) (anchor : ℕ) (cycle : Cycle) (now : ℤ) (periods : ℕ) :
    Except String ℤ :=
  match _h : anchoredDate (date.monthIndex + periods * cycle.interval) anchor with
  | none => .error "renewal date is out of range"
  | some candidate =>
    match representableDateBoundary C candidate timezone with
    | .error e => .error e
    | .ok none => search C timezone date anchor cycle now (periods + 1)
    | .ok (some boundary) =>
      if now ≤ boundary then .ok boundary else search C timezone date anchor cycle now (periods + 1)
termination_by (12 * maxYear + 12 - (date.monthIndex + periods * cycle.interval)).toNat
decreasing_by
  all_goals
    have hpos := cycle.interval_pos
    obtain ⟨hm, hmax⟩ := anchoredDate_month _h
    have hyear := candidate.monthIndex_year
    push_cast
    rw [add_mul, one_mul]
    omega

/-- `advance` changes the state and the deadline in place; the answer says whether the deadline moved -/
structure Advanced where
  state : RenewalState
  deadline : Option ℤ
  changed : Bool
deriving DecidableEq, Repr

def advance (C : Crates) (fresh : ℕ) (state : RenewalState) (deadline : Option ℤ) (cycle : Option String) (now : ℤ) :
    Except String Advanced :=
  if state.enabled = false then .ok ⟨state, deadline, false⟩
  else
    match validateEnabled state deadline cycle, deadline, cycle.bind Cycle.parse with
    | .ok (), some original, some interval =>
      match selectedDate C (some original) state.billingTimezone, selectedDate C (some now) state.billingTimezone with
      | some date, some today =>
        let anchor := state.anchorDay.getD date.day
        let state := { state with anchorDay := some anchor, occurrenceId := some (state.occurrenceId.getD fresh) }
        if now ≤ original then .ok ⟨state, some original, false⟩
        else
          let difference := today.monthIndex - date.monthIndex
          let periods := (max (difference.tdiv interval.interval) 1).toNat
          match search C state.billingTimezone date anchor interval now periods with
          | .error e => .error e
          | .ok boundary =>
            .ok ⟨{ state with deadlineOrigin := .projected, occurrenceId := some (fresh + 1) }, some boundary, true⟩
      | _, _ => .error "invalid billing timezone"
    | .error e, _, _ => .error e
    | .ok (), _, _ => .error "unreachable"

/-! ## Edits -/

/-- the columns of a server that renewal reads or writes; `renewal_state` is stored decoded, `none` when it is absent or
does not decode -/
structure Server where
  id : ℕ
  expiredAt : Option ℤ
  renewalState : Option RenewalState
  billingCycle : Option String
deriving DecidableEq, Repr

def RenewalState.fromServer (model : Server) : RenewalState :=
  model.renewalState.getD ⟨false, .confirmed, none, none, "UTC", model.expiredAt⟩

structure RenewalInput where
  enabled : Option Bool
  billingTimezone : Option (Option String)
  expiryDate : Option (Option String)
deriving DecidableEq, Repr

/-- a date of the input: `none` when it is not printed as it was written -/
def inputDate (C : Crates) (s : String) : Option Date := (C.parseDate s).filter fun date => C.printDate date == s

/-- `instant.time() == NaiveTime::MIN` -/
def atMidnight (instant : ℤ) : Bool := instant % dayNanos == 0

/-- an old client repeats the stored instant, or the midnight of its UTC date -/
def unchangedLegacy (value original : Option ℤ) : Bool :=
  value == original ||
    match value, original with
    | some new, some old => dateAt new == dateAt old && atMidnight new
    | _, _ => false

/-- what the date part of an edit leads to: the deadline, and whether the date was replaced -/
def editedDate (C : Crates) (timezone : String) (oldDate : Option Date) (original : Option ℤ)
    (date : Option (Option String)) (legacy : Option (Option ℤ)) : Except String (Option ℤ × Bool) :=
  match date, legacy with
  | some _, some _ => .error "expiry_date and expired_at cannot be submitted together"
  | some none, none => if oldDate = none then .ok (original, false) else .ok (none, true)
  | some (some s), none =>
    match inputDate C s with
    | none => .error "expiry_date must be YYYY-MM-DD"
    | some d =>
      if some d = oldDate then .ok (original, false) else (boundaryOf C (some d) timezone).map fun v => (v, true)
  | none, some value =>
    if unchangedLegacy value original then .ok (original, false)
    else
      let d := value.bind fun instant =>
        if atMidnight instant then some (dateAt instant) else selectedDate C (some instant) timezone
      (boundaryOf C d timezone).map fun v => (v, true)
  | none, none => .ok (original, false)

/-- the time zone of an edit, and whether it changed -/
def editedZone (C : Crates) (state : RenewalState) (input : Option RenewalInput) : Except String (String × Bool) :=
  match input.bind (·.billingTimezone) with
  | none => .ok (state.billingTimezone, false)
  | some zone =>
    let zone := zone.getD "UTC"
    if (C.zone zone).isNone then .error "billing_timezone must be a valid IANA timezone"
    else .ok (zone, decide (zone ≠ state.billingTimezone))

/-- the three ids are drawn for a time zone change, a replaced date and a schedule without an occurrence -/
def applyCalendar (C : Crates) (fresh : ℕ) (state : RenewalState) (original : Option ℤ) (input : Option RenewalInput)
    (legacy : Option (Option ℤ)) : Except String (RenewalState × Option ℤ) := do
  let resultingEnabled := (input.bind (·.enabled)).getD state.enabled
  if resultingEnabled = true ∧ input.bind (·.billingTimezone) = some none then
    throw "automatic renewal requires a billing timezone"
  let oldDate := selectedDate C original state.billingTimezone
  let (zone, timezoneChanged) ← editedZone C state input
  let state := { state with billingTimezone := zone }
  let (deadline, dateReplaced) ← editedDate C zone oldDate original (input.bind (·.expiryDate)) legacy
  let moved := timezoneChanged && !dateReplaced
  let deadline ← if moved then boundaryOf C oldDate zone else pure deadline
  let state :=
    if moved && state.occurrenceId.isNone then { state with occurrenceId := deadline.map fun _ => fresh } else state
  let state :=
    if dateReplaced then
      { state with
        confirmedExpiredAt := deadline
        deadlineOrigin := .confirmed
        anchorDay := (selectedDate C deadline zone).map (·.day)
        occurrenceId := deadline.map fun _ => fresh + 1 }
    else state
  let state := { state with enabled := resultingEnabled }
  let state :=
    if state.enabled = false ∧ state.deadlineOrigin = .projected then { state with deadlineOrigin := .frozen } else state
  let state :=
    if state.enabled then
      { state with
        deadlineOrigin := .projected
        anchorDay := if state.anchorDay.isNone then (selectedDate C deadline zone).map (·.day) else state.anchorDay
        occurrenceId := if state.occurrenceId.isNone then deadline.map fun _ => fresh + 2 else state.occurrenceId }
    else state
  pure (state, deadline)

def applyEdit (C : Crates) (fresh : ℕ) (model : Server) (input : Option RenewalInput) (legacy : Option (Option ℤ))
    (billingCycle : Option String) (now : ℤ) : Except String (RenewalState × Option ℤ) := do
  let previous := RenewalState.fromServer model
  let enabling := !previous.enabled && input.bind (·.enabled) == some true
  let (state, deadline) ← applyCalendar C fresh previous model.expiredAt input legacy
  validateEnabled state deadline billingCycle
  let deadline ←
    if enabling then boundaryOf C (selectedDate C deadline state.billingTimezone) state.billingTimezone
    else pure deadline
  let advanced ← advance C (fresh + 3) state deadline billingCycle now
  pure (advanced.state, advanced.deadline)

/-- one server of a catch-up: the row is written only when the deadline moved -/
def advanceLocked (C : Crates) (fresh : ℕ) (model : Server) (now : ℤ) : Except String (Server × Bool) :=
  match advance C fresh (RenewalState.fromServer model) model.expiredAt model.billingCycle now with
  | .error e => .error e
  | .ok r =>
    if r.changed then .ok ({ model with expiredAt := r.deadline, renewalState := some r.state }, true)
    else .ok (model, false)

end ServerBee.Renewal
