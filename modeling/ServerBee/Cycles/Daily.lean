/-
Daily traffic and the totals of billing cycles (`service/traffic.rs`: `aggregate_daily`, `aggregate_daily_for_date`,
`query_cycle_traffic`, `cycle_history`).

Instants are seconds from the start of 0000-01-01 UTC, days are numbered from there: day `n` begins at `86400 * n`. Hours and
dates are compared as texts by the code; for years of four digits the texts order as the numbers do. Bytes are counts (the
source has i64), and a function that panics has no result. Failed statements are left out.
-/
import ServerBee.Cycles.Ranges
import ServerBee.Lib.LocalTime
import ServerBee.Lib.Table

namespace ServerBee.Cycles

open ServerBee.Lib ServerBee.Lib.Calendar

/-! ## Tables -/

/-- `bytes_in` and `bytes_out` -/
abbrev Bytes := ℕ × ℕ

/-- `traffic_hourly`; `bucket` is the number of the UTC hour -/
structure HourlyRow where
  serverId : String
  bucket : ℤ
  bytes : Bytes
deriving DecidableEq, Repr

def HourlyRow.key (r : HourlyRow) : String × ℤ := (r.serverId, r.bucket)

def HourlyRow.hour (r : HourlyRow) : ℤ := 3600 * r.bucket

/-- `date(hour)` -/
def HourlyRow.utcDate (r : HourlyRow) : ℤ := r.hour / 86400

/-- `traffic_daily` -/
structure DailyRow where
  serverId : String
  date : ℤ
  bytes : Bytes
deriving DecidableEq, Repr

def DailyRow.key (r : DailyRow) : String × ℤ := (r.serverId, r.date)

structure Db where
  hourly : Table HourlyRow.key
  daily : Table DailyRow.key

/-- `SUM(bytes_in), SUM(bytes_out)` -/
def sumHourly (rows : List HourlyRow) : Bytes := (rows.map HourlyRow.bytes).sum

def sumDaily (rows : List DailyRow) : Bytes := (rows.map DailyRow.bytes).sum

/-! ## Aggregation -/

abbrev TimeZone := LocalMap 86400

/-- `start_utc` and `end_utc` of a local date -/
def window (tz : TimeZone) (date : ℤ) : Option (ℤ × ℤ) := do
  let startLocal := tz.fromLocal (86400 * date)
  let endLocal := tz.fromLocal (86400 * date + 86399)
  let startUtc ← startLocal.earliest <|> startLocal.latest
  let endUtc ← endLocal.latest <|> endLocal.earliest
  pure (startUtc, endUtc)

/-- `hour >= start_utc AND hour <= end_utc` -/
def HourlyRow.inWindow (r : HourlyRow) (w : ℤ × ℤ) : Bool := w.1 ≤ r.hour && r.hour ≤ w.2

/-- INSERT .. ON CONFLICT(server_id, date) DO UPDATE -/
def upsertDaily (daily : Table DailyRow.key) (row : DailyRow) : Table DailyRow.key :=
  match daily.insert row with
  | some daily => daily
  | none => daily.set row

def aggregateDailyForDate (tz : TimeZone) (date : ℤ) (db : Db) : Option Db := do
  let w ← window tz date
  let rows := db.hourly.rows.filter fun r => r.inWindow w
  let groups := (rows.map HourlyRow.serverId).dedup.map fun serverId =>
    DailyRow.mk serverId date (sumHourly (rows.filter fun r => r.serverId == serverId))
  pure { db with daily := groups.foldl upsertDaily db.daily }

/-- yesterday and today, in local time -/
def aggregateDaily (tz : TimeZone) (now : ℤ) (db : Db) : Option Db := do
  let todayLocal := tz.clock now / 86400
  let db ← aggregateDailyForDate tz (todayLocal - 1) db
  aggregateDailyForDate tz todayLocal db

/-! ## Cycle totals -/

/-- today's hourly bytes, where there is no daily row of today -/
def supplement (db : Db) (serverId : String) (today : ℤ) : Bytes :=
  sumHourly (db.hourly.rows.filter fun h => h.serverId == serverId && h.utcDate == today &&
    !db.daily.rows.any fun d => d.serverId == h.serverId && d.date == today)

/-- the daily rows of a server dated in a range -/
def dailyTotal (db : Db) (serverId : String) (first last : ℤ) : Bytes :=
  sumDaily (db.daily.rows.filter fun d => d.serverId == serverId && (decide (first ≤ d.date) && decide (d.date ≤ last)))

/-- `today` is the UTC date at the time of the query -/
def queryCycleTraffic (db : Db) (serverId : String) (today first last : ℤ) : Bytes :=
  dailyTotal db serverId first last + supplement db serverId today

structure CycleTraffic where
  start : Date
  finish : Date
  bytes : Bytes

/-- the loop of `cycle_history` -/
def historyBack (db : Db) (serverId billingCycle : String) (billingStartDay : Option ℤ) (today : Date) :
    ℕ → Date × Date → Option (List CycleTraffic)
  | 0, _ => some []
  | count + 1, (first, last) => do
    let bytes := queryCycleTraffic db serverId today.dayNumber first.dayNumber last.dayNumber
    let prevDay ← addDays first (-1)
    let prev ← getCycleRange billingCycle billingStartDay prevDay
    let rest ← historyBack db serverId billingCycle billingStartDay today count prev
    pure (⟨first, last, bytes⟩ :: rest)

def cycleHistory (db : Db) (serverId billingCycle : String) (billingStartDay : Option ℤ) (today : Date) (count : ℕ) :
    Option (List CycleTraffic) := do
  let current ← getCycleRange billingCycle billingStartDay today
  historyBack db serverId billingCycle billingStartDay today count current

end ServerBee.Cycles
