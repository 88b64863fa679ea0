/-
Traffic accounting (`flush_reports` of `task/record_writer.rs`, `service/traffic.rs`).

Agents report cumulative byte counters. Every tick the server measures each report against the one before it, which is
kept in memory (`cache`) and in `traffic_state` for a restart, and adds the growth to the row of the hour. The cache, the
hourly row and the state row are updated one after the other; a failed write is only logged.

Byte counts are ℤ (the source has i64). SQLite adds integers exactly below 2^63 and goes over to floating point there, so
the cells of an hourly row say whether they are still exact. Metric records are left out.
-/
import ServerBee.Lib.Crash
import ServerBee.Lib.Table

namespace ServerBee.Traffic

open ServerBee.Lib

/-! ## Tables -/

inductive Cell where
  | exact (n : ℤ)
  | inexact
deriving DecidableEq, Repr

/-- SQLite's addition of an integer -/
def Cell.add : Cell → ℤ → Cell
  | .exact m, n => if m + n < 9223372036854775808 then .exact (m + n) else .inexact
  | .inexact, _ => .inexact

def Cell.value : Cell → ℤ
  | .exact n => n
  | .inexact => 0

structure HourlyRow where
  serverId : ℕ
  hour : ℤ
  bytesIn : Cell
  bytesOut : Cell
deriving DecidableEq, Repr

def HourlyRow.key (r : HourlyRow) : ℕ × ℤ := (r.serverId, r.hour)

structure StateRow where
  serverId : ℕ
  lastIn : ℤ
  lastOut : ℤ
deriving DecidableEq, Repr

structure Db where
  hourly : Table HourlyRow.key
  states : Table StateRow.serverId

/-- the counters of a report: `net_in_transfer` and `net_out_transfer` -/
abbrev Counters := ℤ × ℤ

/-- a server process on its database. `observed` is the history of the reports that were taken into the cache, newest
first. -/
structure World where
  db : Db
  cache : ℕ → Option Counters
  observed : ℕ → List Counters

/-! ## Writes -/

def addTraffic (delta : Counters) (r : HourlyRow) : HourlyRow :=
  { r with bytesIn := r.bytesIn.add delta.1, bytesOut := r.bytesOut.add delta.2 }

def upsertHourly (db : Db) (serverId : ℕ) (hour : ℤ) (delta : Counters) : Db :=
  match db.hourly.insert ⟨serverId, hour, .exact delta.1, .exact delta.2⟩ with
  | some hourly => { db with hourly := hourly }
  | none => { db with hourly := db.hourly.update (fun r => r.key = (serverId, hour)) (addTraffic delta) fun _ _ => rfl }

def upsertState (db : Db) (serverId : ℕ) (last : Counters) : Db :=
  match db.states.insert ⟨serverId, last.1, last.2⟩ with
  | some states => { db with states := states }
  | none => { db with states := db.states.set ⟨serverId, last.1, last.2⟩ }

def loadTransferCache (db : Db) (serverId : ℕ) : Option Counters :=
  (db.states.get serverId).map fun row => (row.lastIn, row.lastOut)

/-! ## The tick -/

def computeDelta (prevIn prevOut currIn currOut : ℤ) : Counters :=
  (if currIn ≥ prevIn then currIn - prevIn else currIn, if currOut ≥ prevOut then currOut - prevOut else currOut)

inductive Statement where
  | cacheInsert (serverId : ℕ) (curr : Counters)
  | upsertHourly (serverId : ℕ) (hour : ℤ) (delta : Counters)
  | upsertState (serverId : ℕ) (last : Counters)
deriving DecidableEq, Repr

/-- a statement that succeeds or fails; only writes to the database fail -/
def exec : Statement → Bool → World → World
  | .cacheInsert serverId curr, _, w =>
    { w with
      cache := Function.update w.cache serverId (some curr)
      observed := Function.update w.observed serverId (curr :: w.observed serverId) }
  | .upsertHourly serverId hour delta, ok, w => if ok then { w with db := upsertHourly w.db serverId hour delta } else w
  | .upsertState serverId last, ok, w => if ok then { w with db := upsertState w.db serverId last } else w

abbrev Tick := Prog Statement World

def perform (o : Statement) : Tick Unit := .act o (.done ())

def cached (serverId : ℕ) : Tick (Option Counters) := .look fun w => .done (w.cache serverId)

def writeHourly (serverId : ℕ) (hour : ℤ) (delta : Counters) : Tick Unit :=
  if delta.1 > 0 ∨ delta.2 > 0 then perform (.upsertHourly serverId hour delta) else .done ()

/-- the traffic of one report -/
def flushReport (hour : ℤ) (serverId : ℕ) (curr : Counters) : Tick Unit := do
  if curr.1 = 0 ∧ curr.2 = 0 then .done ()
  else
    match ← cached serverId with
    | none =>
      perform (.cacheInsert serverId curr)
      perform (.upsertState serverId curr)
    | some prev =>
      let delta := computeDelta prev.1 prev.2 curr.1 curr.2
      perform (.cacheInsert serverId curr)
      writeHourly serverId hour delta
      perform (.upsertState serverId curr)

/-- `now`, in nanoseconds, truncated to the hour -/
def hourOf (now : ℤ) : ℤ := now - now % 3600000000000

def flushReports (now : ℤ) : List (ℕ × Counters) → Tick Unit
  | [] => .done ()
  | (serverId, curr) :: reports => do
    flushReport (hourOf now) serverId curr
    flushReports now reports

/-! ## The machine -/

structure St where
  world : World
  /-- what is left of the tick under way -/
  tick : Tick Unit

def St.init : St := ⟨⟨⟨∅, ∅⟩, fun _ => none, fun _ => []⟩, .done ()⟩

inductive Op where
  /-- the reports of the agents that are online, once the last tick is over -/
  | tick (now : ℤ) (reports : List (ℕ × Counters))
  /-- the next statement of the tick under way -/
  | statement (ok : Bool)
  /-- the process starts anew; without the table it begins with an empty cache -/
  | restart (loaded : Bool)

def step (s : St) : Op → St
  | .tick now reports =>
    match s.tick.next s.world with
    | none => { s with tick := flushReports now reports }
    | some _ => s
  | .statement ok =>
    match s.tick.next s.world with
    | none => s
    | some (o, rest) => ⟨exec o ok s.world, rest⟩
  | .restart loaded =>
    ⟨{ s.world with cache := if loaded then loadTransferCache s.world.db else fun _ => none }, .done ()⟩

def run (s : St) (ops : List Op) : St := ops.foldl step s

/-! ## What is to be conserved -/

/-- the growth of a counter between two reports; a smaller value means that it restarted from zero -/
def counterGrowth (prev curr : ℤ) : ℤ := if prev ≤ curr then curr - prev else curr

/-- the growth over consecutive reports, newest first -/
def totalGrowth : List ℤ → ℤ
  | curr :: prev :: older => counterGrowth prev curr + totalGrowth (prev :: older)
  | _ => 0

/-- the bytes of a server in `traffic_hourly`, unless a cell is no longer exact -/
def hourlyTotal (db : Db) (serverId : ℕ) (direction : HourlyRow → Cell) : Option ℤ :=
  let cells := (db.hourly.rows.filter fun r => r.serverId = serverId).map direction
  if .inexact ∈ cells then none else some (cells.map Cell.value).sum

/-- the hourly rows of the server hold what its observed reports grew by, in each direction -/
def Conserved (w : World) (serverId : ℕ) : Prop :=
  hourlyTotal w.db serverId HourlyRow.bytesIn = some (totalGrowth ((w.observed serverId).map Prod.fst)) ∧
    hourlyTotal w.db serverId HourlyRow.bytesOut = some (totalGrowth ((w.observed serverId).map Prod.snd))

instance (w : World) (serverId : ℕ) : Decidable (Conserved w serverId) := inferInstanceAs (Decidable (_ ∧ _))

end ServerBee.Traffic
