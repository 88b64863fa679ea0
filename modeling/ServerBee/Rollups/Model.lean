/-
The hourly roll-ups (`RecordService::aggregate_hourly`, `NetworkProbeService::aggregate_hourly`, `task/aggregator.rs`).

Instants are ℤ, in nanoseconds; a bucket is a UTC hour. An hourly table has one row for each key and hour (its UNIQUE
index), so it is a function. Numbers are of any type `F` with the operations that the code and SQLite use of `f64`, of
which no law is taken. A query returns rows in the order in which they were inserted. A tick runs the two roll-ups one
after the other, each with its own clock reading; either may fail before its first statement or stop after some of them.
A statement is atomic. Traffic and uptime roll-ups and the deletion of old rows are not here.
-/
import ServerBee.Lib.Buckets
import ServerBee.Lib.Run

namespace ServerBee.Rollups

open ServerBee.Lib

/-- what is used of `f64` -/
class Real64 (F : Type) extends Zero F, Add F, Div F, Min F, Max F where
  ofInt : ℤ → F
  /-- SQLite's `AVG` of one or more numbers -/
  avg : List F → F
  /-- `CAST(.. AS INTEGER)` -/
  truncate : F → ℤ

/-- `Duration::hours(1)` -/
def hour : ℤ := 3600000000000

/-! ## Raw records -/

/-- the columns with `RollupAgg::Avg` -/
inductive AvgColumn where
  | cpu
  | load1
  | load5
  | load15
  | temperature
  | gpuUsage
deriving DecidableEq, Repr

/-- the columns with `RollupAgg::AvgInt` -/
inductive AvgIntColumn where
  | memUsed
  | swapUsed
  | diskUsed
  | netInSpeed
  | netOutSpeed
  | tcpConn
  | udpConn
  | processCount
deriving DecidableEq, Repr

/-- the columns with `RollupAgg::MaxInt` -/
inductive MaxIntColumn where
  | netInTransfer
  | netOutTransfer
deriving DecidableEq, Repr

/-- the scalar columns of `records` and `records_hourly` -/
structure Metrics (F : Type) where
  avg : AvgColumn → Option F
  avgInt : AvgIntColumn → ℤ
  maxInt : MaxIntColumn → ℤ

structure Record (F : Type) where
  serverId : String
  time : ℤ
  metrics : Metrics F
  diskIoJson : Option String

structure RecordHourly (F : Type) where
  metrics : Metrics F
  diskIoJson : Option String

structure NetworkProbeRecord (F : Type) where
  serverId : String
  targetId : String
  avgLatency : Option F
  minLatency : Option F
  maxLatency : Option F
  packetLoss : F
  timestamp : ℤ

structure NetworkProbeRecordHourly (F : Type) where
  avgLatency : Option F
  minLatency : Option F
  maxLatency : Option F
  avgPacketLoss : F
  sampleCount : ℤ

variable {F : Type}

def recordSeries : Buckets.Spec (Record F) String := ⟨Record.serverId, Record.time, hour⟩

def probeSeries : Buckets.Spec (NetworkProbeRecord F) (String × String) :=
  ⟨fun r => (r.serverId, r.targetId), NetworkProbeRecord.timestamp, hour⟩

/-! ## Rows -/

structure DiskIo where
  name : String
  readBytesPerSec : ℕ
  writeBytesPerSec : ℕ
deriving DecidableEq, Repr

/-- how `Vec<DiskIo>` is read and written as JSON -/
structure DiskIoJson where
  parse : String → Option (List DiskIo)
  print : List DiskIo → String

/-- `aggregate_disk_io` -/
def aggregateDiskIo (json : DiskIoJson) (group : List (Record F)) : Option String :=
  let raws := group.filterMap (·.diskIoJson)
  let entries := (raws.filterMap json.parse).flatten
  let names := ((entries.map (·.name)).dedup).mergeSort fun left right => left ≤ right
  if raws.isEmpty then none
  else if entries.isEmpty then some "[]"
  else
    some (json.print (names.map fun name =>
      let samples := entries.filter fun entry => entry.name = name
      { name
        readBytesPerSec := (samples.map (·.readBytesPerSec)).sum / samples.length
        writeBytesPerSec := (samples.map (·.writeBytesPerSec)).sum / samples.length }))

variable [Real64 F]

/-- the select list of `aggregate_hourly_sql`, over one or more records -/
def aggregateHourlySql (group : List (Record F)) : Metrics F where
  avg column :=
    match group.filterMap fun r => r.metrics.avg column with
    | [] => none
    | values => some (Real64.avg values)
  avgInt column := Real64.truncate (Real64.avg (group.map fun r => (Real64.ofInt (r.metrics.avgInt column) : F)))
  maxInt column :=
    let values := group.map fun r => r.metrics.maxInt column
    values.foldl max (values.headD 0)

/-- the row of a server after the upsert, which leaves `disk_io_json` alone -/
def upsertMetrics (group : List (Record F)) (old : Option (RecordHourly F)) : RecordHourly F :=
  ⟨aggregateHourlySql group, old.bind (·.diskIoJson)⟩

/-- the row of a server after the update of `disk_io_json`, which follows the upsert -/
def setDiskIo (json : DiskIoJson) (group : List (Record F)) (old : Option (RecordHourly F)) : RecordHourly F :=
  ⟨old.elim (aggregateHourlySql group) (·.metrics), aggregateDiskIo json group⟩

/-- `.iter().sum::<f64>()` -/
def sum (values : List F) : F := values.foldl (· + ·) 0

/-- `.reduce(f)` -/
def reduce (f : F → F → F) : List F → Option F
  | [] => none
  | value :: values => some (values.foldl f value)

/-- `as i32` -/
def asI32 (n : ℤ) : ℤ := (n + 2147483648) % 4294967296 - 2147483648

/-- the row of a (server, target) after the upsert -/
def upsertProbe (group : List (NetworkProbeRecord F)) (_old : Option (NetworkProbeRecordHourly F)) :
    NetworkProbeRecordHourly F where
  avgLatency :=
    let latencies := group.filterMap (·.avgLatency)
    if latencies.isEmpty then none else some (sum latencies / Real64.ofInt latencies.length)
  minLatency := reduce min (group.filterMap (·.minLatency))
  maxLatency := reduce max (group.filterMap (·.maxLatency))
  avgPacketLoss := sum (group.map (·.packetLoss)) / Real64.ofInt group.length
  sampleCount := asI32 group.length

/-! ## Ticks -/

inductive RecordsOutcome where
  /-- an error before the first statement -/
  | failed
  /-- the upsert and the updates for these servers, then an error -/
  | stopped (done : List String)
  | succeeded
deriving DecidableEq, Repr

inductive ProbesOutcome where
  /-- the upserts for these servers, targets and hours, then an error -/
  | stopped (done : List ((String × String) × ℤ))
  | succeeded
deriving DecidableEq, Repr

structure State (F : Type) where
  clock : ℤ
  records : List (Record F)
  probes : List (NetworkProbeRecord F)
  recordsHourly : String → ℤ → Option (RecordHourly F)
  probesHourly : String × String → ℤ → Option (NetworkProbeRecordHourly F)
  /-- when the aggregator ran first, and when each roll-up succeeded last (not stored by the code) -/
  firstTick : Option ℤ
  recordsAt : Option ℤ
  probesAt : Option ℤ

def State.init (F : Type) (clock : ℤ) : State F := ⟨clock, [], [], fun _ _ => none, fun _ _ => none, none, none, none⟩

def State.start (s : State F) : State F := { s with firstTick := some (s.firstTick.getD s.clock) }

/-- the upsert for the hour before the one of the clock, then the updates for the servers of `done` -/
def upsertHour (json : DiskIoJson) (done : String → Prop) [DecidablePred done] (s : State F) :
    String → ℤ → Option (RecordHourly F) :=
  let hourEnd := s.clock / hour * hour
  let hourStart := hourEnd - hour
  let upserted := recordSeries.rollUp s.records hourStart hourEnd (fun _ _ => True) upsertMetrics s.recordsHourly
  recordSeries.rollUp s.records hourStart hourEnd (fun server _ => done server) (setDiskIo json) upserted

/-- `RecordService::aggregate_hourly` -/
def aggregateRecords (json : DiskIoJson) (outcome : RecordsOutcome) (s : State F) : State F :=
  match outcome with
  | .failed => s
  | .stopped done => { s with recordsHourly := upsertHour json (· ∈ done) s }
  | .succeeded => { s with recordsHourly := upsertHour json (fun _ => True) s, recordsAt := some s.clock }

/-- `NetworkProbeService::aggregate_hourly`: the hour up to the clock -/
def aggregateProbes (outcome : ProbesOutcome) (s : State F) : State F :=
  let oneHourAgo := s.clock - hour
  match outcome with
  | .stopped done =>
    { s with
      probesHourly := probeSeries.rollUp s.probes oneHourAgo s.clock (fun key h => (key, h) ∈ done) upsertProbe s.probesHourly }
  | .succeeded =>
    { s with
      probesHourly := probeSeries.rollUp s.probes oneHourAgo s.clock (fun _ _ => True) upsertProbe s.probesHourly
      probesAt := some s.clock }

inductive Op (F : Type) where
  | wait (d : ℕ)
  | record (serverId : String) (metrics : Metrics F) (diskIoJson : Option String)
  | probe (serverId targetId : String) (avgLatency minLatency maxLatency : Option F) (packetLoss : F)
  /-- the first half of `aggregate_once` -/
  | rollRecords (outcome : RecordsOutcome)
  /-- the second half of `aggregate_once` -/
  | rollProbes (outcome : ProbesOutcome)

def step (json : DiskIoJson) (s : State F) : Op F → State F
  | .wait d => { s with clock := s.clock + d }
  | .record serverId metrics diskIoJson => { s with records := s.records ++ [⟨serverId, s.clock, metrics, diskIoJson⟩] }
  | .probe serverId targetId avgLatency minLatency maxLatency packetLoss =>
    { s with probes := s.probes ++ [⟨serverId, targetId, avgLatency, minLatency, maxLatency, packetLoss, s.clock⟩] }
  | .rollRecords outcome => aggregateRecords json outcome s.start
  | .rollProbes outcome => aggregateProbes outcome s.start

end ServerBee.Rollups
