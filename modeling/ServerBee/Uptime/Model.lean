/-
The daily uptime rows (`service/uptime.rs`, `task/aggregator.rs`).

Instants are whole nanoseconds; a day is a UTC day. The texts in which instants are stored compare as the instants do. The
records of a server are listed in the order of time, and every run finds the same servers.
-/
import Mathlib.Tactic

namespace ServerBee.Uptime

def second : ℤ := 1000000000

def minute : ℤ := 60 * second

def day : ℤ := 1440 * minute

/-- `DateTime::date_naive`, as a number of days -/
def dateNaive (t : ℤ) : ℤ := t / day

/-- `Duration::num_minutes` and `num_seconds` of what is not negative -/
def numMinutes (d : ℤ) : ℤ := d / minute

def numSeconds (d : ℤ) : ℤ := d / second

structure UptimeDaily where
  totalMinutes : ℤ
  onlineMinutes : ℤ
  downtimeIncidents : ℤ
deriving DecidableEq, Repr

/-- `time >= start AND time < end` -/
def between (records : List ℤ) (dayStart dayEnd : ℤ) : List ℤ :=
  records.filter fun t => decide (dayStart ≤ t) && decide (t < dayEnd)

/-- the loop over the rows, with the time before -/
def countGaps (incidents : ℤ) : Option ℤ → List ℤ → ℤ
  | _, [] => incidents
  | none, time :: rows => countGaps incidents (some time) rows
  | some prev, time :: rows =>
    if numSeconds (time - prev) > 120 then countGaps (incidents + 1) (some time) rows
    else countGaps incidents (some time) rows

def countDowntimeIncidents (records : List ℤ) (dayStart dayEnd : ℤ) : ℤ :=
  let rows := between records dayStart dayEnd
  if rows.length < 2 then 0 else countGaps 0 none rows

/-- the row that a run writes for the current day -/
def rowAt (records : List ℤ) (now : ℤ) : UptimeDaily :=
  let today := dateNaive now
  let dayStart := today * day
  { totalMinutes := max (numMinutes (now - dayStart)) 1
    onlineMinutes := (between records dayStart now).length
    downtimeIncidents := countDowntimeIncidents records dayStart now }

variable {ι : Type} [DecidableEq ι]

/-- the table, by its key -/
abbrev Rows (ι : Type) := ι → ℤ → Option UptimeDaily

def upsert (rows : Rows ι) (srv : ι) (date : ℤ) (row : UptimeDaily) : Rows ι :=
  Function.update rows srv (Function.update (rows srv) date (some row))

def aggregateDaily (servers : List ι) (records : ι → List ℤ) (rows : Rows ι) (now : ℤ) : Rows ι :=
  servers.foldl (fun rows srv => upsert rows srv (dateNaive now) (rowAt (records srv) now)) rows

/-- the rows after these runs -/
def rowsAfter (servers : List ι) (records : ι → List ℤ) (runs : List ℤ) : Rows ι :=
  runs.foldl (aggregateDaily servers records) fun _ _ => none

/-! ## What a row holds -/

theorem aggregateDaily_self {servers : List ι} {srv : ι} (h : srv ∈ servers) (records : ι → List ℤ) (rows : Rows ι) (now : ℤ) :
    aggregateDaily servers records rows now srv =
      Function.update (rows srv) (dateNaive now) (some (rowAt (records srv) now)) := by
  -- a server that was written keeps its row, as another write gives the same one
  have hkeep : ∀ (servers : List ι) (rows : Rows ι),
      rows srv = Function.update (rows srv) (dateNaive now) (some (rowAt (records srv) now)) →
      aggregateDaily servers records rows now srv = rows srv := by
    intro servers
    induction servers with
    | nil => exact fun _ _ => rfl
    | cons other servers ih =>
      intro rows hrows
      by_cases heq : other = srv
      · subst heq
        have hsame : upsert rows other (dateNaive now) (rowAt (records other) now) = rows := by
          rw [upsert, ← hrows, Function.update_eq_self]
        rw [aggregateDaily, List.foldl_cons, hsame]
        exact ih rows hrows
      · have hother : upsert rows other (dateNaive now) (rowAt (records other) now) srv = rows srv :=
          Function.update_of_ne (Ne.symm heq) ..
        rw [aggregateDaily, List.foldl_cons]
        exact (ih _ (by rw [hother]; exact hrows)).trans hother
  induction servers generalizing rows with
  | nil => cases h
  | cons other servers ih =>
    by_cases heq : other = srv
    · subst heq
      have hwritten : upsert rows other (dateNaive now) (rowAt (records other) now) other =
          Function.update (rows other) (dateNaive now) (some (rowAt (records other) now)) := Function.update_self ..
      rw [aggregateDaily, List.foldl_cons]
      refine (hkeep servers _ ?_).trans hwritten
      rw [hwritten, Function.update_idem]
    · have hother : upsert rows other (dateNaive now) (rowAt (records other) now) srv = rows srv :=
        Function.update_of_ne (Ne.symm heq) ..
      rw [aggregateDaily, List.foldl_cons, ← hother]
      exact ih ((List.mem_cons.1 h).resolve_left (Ne.symm heq)) _

/-- the last of the runs on a day -/
def lastRun (runs : List ℤ) (date : ℤ) : Option ℤ := (runs.filter fun n => decide (dateNaive n = date)).getLast?

/-- a row is never written again after its day -/
theorem rowsAfter_eq {servers : List ι} {srv : ι} (h : srv ∈ servers) (records : ι → List ℤ) (runs : List ℤ) (date : ℤ) :
    rowsAfter servers records runs srv date = (lastRun runs date).map (rowAt (records srv)) := by
  induction runs using List.reverseRecOn with
  | nil => rfl
  | append_singleton runs now ih =>
    rw [rowsAfter, List.foldl_concat, aggregateDaily_self h]
    by_cases hdate : dateNaive now = date
    · rw [← hdate, Function.update_self]
      simp [lastRun]
    · rw [Function.update_of_ne (Ne.symm hdate)]
      simpa [lastRun, rowsAfter, hdate] using ih

theorem lastRun_mem {runs : List ℤ} {date now : ℤ} (h : lastRun runs date = some now) : now ∈ runs ∧ dateNaive now = date := by
  have hmem := List.mem_filter.1 (List.mem_of_getLast? h)
  exact ⟨hmem.1, of_decide_eq_true hmem.2⟩

end ServerBee.Uptime
