/-
The network part of the public status surface (`service/network_probe.rs`).

`get_server_summary` and `get_anomalies` ask for the rows of one server; `get_overview` reads the rows of all servers and takes them
apart afterwards. Where the order of a window function leaves two rows equal, the one that was written first comes first.
-/
import ServerBee.Lib.Passes
import ServerBee.Status.Tables

namespace ServerBee.Status

variable {F : Type} [Real64 F]

def sparklineLength : ℕ := 30

structure TargetSummary (F : Type) where
  targetId : String
  targetName : String
  provider : String
  avgLatency : Option F
  minLatency : Option F
  maxLatency : Option F
  packetLoss : F
  availability : F

structure ServerSummary (F : Type) where
  serverId : String
  serverName : String
  online : Bool
  targets : List (TargetSummary F)
  lastProbeAt : Option ℤ
  anomalyCount : ℕ

structure ServerOverview (F : Type) where
  serverId : String
  serverName : String
  online : Bool
  lastProbeAt : Option ℤ
  targets : List (TargetSummary F)
  anomalyCount : ℕ
  latencySparkline : List (Option F)
  lossSparkline : List (Option F)

structure SparklineBundle (F : Type) where
  latency : List (Option F)
  loss : List (Option F)

structure SparklineRow (F : Type) where
  bucketTs : ℤ
  latency : Option F
  loss : Option F

structure NetworkProbeAnomaly (F : Type) where
  timestamp : ℤ
  targetId : String
  targetName : String
  anomalyType : String
  value : F

/-! ## Targets -/

/-- the targets of a server: those built in first, then those of the table -/
def getServerTargets (env : Env F) (s : State F) (serverId : String) : List Target :=
  let targetIds := (rowsOf ProbeConfig.serverId s.probeConfigs serverId).map ProbeConfig.targetId
  let find := fun id => env.presets.find? fun t => t.id == id
  let dbIds := targetIds.filter fun id => (find id).isNone
  targetIds.filterMap find ++ s.probeTargets.filter fun t => dbIds.contains t.id

/-- an entry of `build_target_map`, where the table comes after what is built in -/
def targetMap (env : Env F) (s : State F) (id : String) : Option Target :=
  lookupLast (fun t => t.id == id) (env.presets ++ s.probeTargets)

def targetSummary (id name provider : String) : Option (ProbeRecord F) → TargetSummary F
  | some record =>
    { targetId := id, targetName := name, provider := provider, avgLatency := record.avgLatency, minLatency := record.minLatency,
      maxLatency := record.maxLatency, packetLoss := record.packetLoss,
      availability := Real64.ofInt 1 - record.packetLoss }
  | none =>
    { targetId := id, targetName := name, provider := provider, avgLatency := none, minLatency := none, maxLatency := none,
      packetLoss := Real64.ofInt 0, availability := Real64.ofInt 0 }

/-! ## Latest records -/

/-- row number one of its server and target by `timestamp DESC` -/
def isLatest (records : List (ProbeRecord F)) (r : ProbeRecord F) : Bool := records.all fun r' =>
  !(r'.serverId == r.serverId && r'.targetId == r.targetId) || decide (r'.timestamp < r.timestamp) ||
    (decide (r'.timestamp = r.timestamp) && decide (r.id ≤ r'.id))

def fetchLatestRecordsForServer (s : State F) (serverId : String) : List (ProbeRecord F) :=
  let rows := rowsOf ProbeRecord.serverId s.probeRecords serverId
  rows.filter fun r => isLatest rows r

def fetchLatestRecordsAllServers (s : State F) : List (ProbeRecord F) := s.probeRecords.filter fun r => isLatest s.probeRecords r

/-- the loop over the targets, as to the instants of their records -/
def lastProbeAt (records : List (Option (ProbeRecord F))) : Option ℤ :=
  (records.filterMap fun r => r.map ProbeRecord.timestamp).foldl Lib.later none

/-! ## Anomalies -/

/-- the predicate of both queries -/
def isAnomaly (highLatencyMs : F) (r : ProbeRecord F) : Bool :=
  Real64.le (Real64.ofInt 1) r.packetLoss || (r.avgLatency.any fun latency => Real64.lt highLatencyMs latency) ||
    Real64.lt (Real64.ofDecimal 1 1) r.packetLoss

def countAnomalies (s : State F) (serverId : String) (since : ℤ) (highLatencyThreshold : F) : ℕ :=
  (rowsOf ProbeRecord.serverId s.probeRecords serverId).countP fun r =>
    decide (since ≤ r.timestamp) && isAnomaly highLatencyThreshold r

/-- what the loop of `get_anomalies` pushes for one record -/
def anomaliesOf (env : Env F) (targetName : String) (r : ProbeRecord F) : List (NetworkProbeAnomaly F) :=
  let anomaly := fun anomalyType value => NetworkProbeAnomaly.mk r.timestamp r.targetId targetName anomalyType value
  if Real64.lt (Real64.abs (r.packetLoss - Real64.ofInt 1)) (Real64.epsilon : F) then [anomaly "unreachable" r.packetLoss]
  else
    (match r.avgLatency with
    | some latency =>
      if Real64.lt env.veryHighLatencyMs latency then [anomaly "very_high_latency" latency]
      else if Real64.lt env.highLatencyMs latency then [anomaly "high_latency" latency] else []
    | none => []) ++
    (if Real64.lt (Real64.ofDecimal 5 1) r.packetLoss then [anomaly "very_high_packet_loss" r.packetLoss]
      else if Real64.lt (Real64.ofDecimal 1 1) r.packetLoss then [anomaly "high_packet_loss" r.packetLoss] else [])

def getAnomalies (env : Env F) (s : State F) (serverId : String) (since till : ℤ) : List (NetworkProbeAnomaly F) :=
  let targets := getServerTargets env s serverId
  let rows := (rowsOf ProbeRecord.serverId s.probeRecords serverId).filter fun r =>
    decide (since ≤ r.timestamp) && decide (r.timestamp ≤ till) && isAnomaly env.highLatencyMs r
  ((orderByDesc ProbeRecord.timestamp rows).take 500).flatMap fun r =>
    anomaliesOf env (((lookupLast (fun t => t.id == r.targetId) targets).map Target.name).getD r.targetId) r

/-! ## Sparklines -/

/-- `strftime('%s', ..)` rounds to milliseconds first -/
def unixSeconds (t : ℤ) : ℤ := (t + 500000) / 1000000 / 1000

def bucketOf (bucketSeconds t : ℤ) : ℤ := (unixSeconds t).tdiv bucketSeconds * bucketSeconds

/-- `AVG` over the numbers that are not NULL -/
def average : List F → Option F
  | [] => none
  | xs => some (Real64.avg xs)

/-- the rows of the query for one server, of whose records `rows` are all -/
def bucketed (bucketSeconds : ℤ) (rows : List (ProbeRecord F)) : List (SparklineRow F) :=
  match (rows.map fun r => unixSeconds r.timestamp).max? with
  | none => []
  | some latest =>
    let latestBucket := latest.tdiv bucketSeconds * bucketSeconds
    let windowSpan := (sparklineLength - 1 : ℤ) * bucketSeconds
    let inWindow := rows.filter fun r =>
      decide (latestBucket - windowSpan ≤ bucketOf bucketSeconds r.timestamp) &&
        decide (bucketOf bucketSeconds r.timestamp ≤ latestBucket)
    let buckets := (inWindow.map fun r => bucketOf bucketSeconds r.timestamp).dedup
    (orderBy id buckets).map fun bucketTs =>
      let members := inWindow.filter fun r => decide (bucketOf bucketSeconds r.timestamp = bucketTs)
      ⟨bucketTs, average (members.filterMap ProbeRecord.avgLatency), average (members.map ProbeRecord.packetLoss)⟩

def emptySparklineBundle : SparklineBundle F := ⟨List.replicate sparklineLength none, List.replicate sparklineLength none⟩

def sparklineBundle (env : Env F) (bucketSeconds : ℤ) (rows : List (SparklineRow F)) : SparklineBundle F :=
  let nowBucket := (env.now / second) / bucketSeconds * bucketSeconds
  let latestBucket := (rows.getLast?.map SparklineRow.bucketTs).getD nowBucket
  let startBucket := latestBucket - (sparklineLength - 1 : ℤ) * bucketSeconds
  let points := (List.range sparklineLength).map fun index =>
    lookupLast (fun row => decide (row.bucketTs = startBucket + index * bucketSeconds)) rows
  ⟨points.map fun row => row.bind SparklineRow.latency, points.map fun row => row.bind SparklineRow.loss⟩

/-- the rows of a server are removed from the result of the query when its bundle is made -/
def querySparklines (env : Env F) (s : State F) (serverIds : List String) (bucketSeconds : ℤ) :
    List (String × SparklineBundle F) :=
  let bucketSeconds := max bucketSeconds 1
  Lib.drain (fun id rows => (id, sparklineBundle env bucketSeconds rows)) []
    (fun id => bucketed bucketSeconds (rowsOf ProbeRecord.serverId s.probeRecords id)) serverIds

/-! ## Summaries -/

def getServerSummary (env : Env F) (s : State F) (serverId : String) : Except AppError (ServerSummary F) :=
  match s.servers.find? fun srv => srv.id == serverId with
  | none => .error (.notFound s!"Server {serverId} not found")
  | some srv =>
    let targets := getServerTargets env s serverId
    let latestRecords := fetchLatestRecordsForServer s serverId
    let recordByTarget := fun id => lookupLast (fun r => r.targetId == id) latestRecords
    .ok
      { serverId := serverId
        serverName := srv.name
        online := s.online serverId
        targets := targets.map fun t => targetSummary t.id t.name t.provider (recordByTarget t.id)
        lastProbeAt := lastProbeAt (targets.map fun t => recordByTarget t.id)
        anomalyCount := countAnomalies s serverId (env.now - 24 * hour) env.highLatencyMs }

/-- the body of the loop of `get_overview`, where the rows of all servers were taken apart before -/
def overviewOf (hash : Hash) (env : Env F) (s : State F) (sparklines : List (String × SparklineBundle F)) (serverId : String) :
    ServerOverview F :=
  let validTargetIds := hash.targets serverId ((rowsOf ProbeConfig.serverId s.probeConfigs serverId).map ProbeConfig.targetId)
  let records := rowsOf ProbeRecord.serverId (fetchLatestRecordsAllServers s) serverId
  let recordMap := fun id => lookupLast (fun r => r.targetId == id) records
  let sparkline := ((lookupLast (fun entry => entry.1 == serverId) sparklines).map Prod.snd).getD emptySparklineBundle
  { serverId := serverId
    serverName := ((lookupLast (fun srv => srv.id == serverId) s.servers).map Server.name).getD serverId
    online := s.online serverId
    lastProbeAt := lastProbeAt (validTargetIds.map recordMap)
    targets := validTargetIds.map fun id =>
      targetSummary id (((targetMap env s id).map Target.name).getD id) (((targetMap env s id).map Target.provider).getD "")
        (recordMap id)
    anomalyCount := countAnomalies s serverId (env.now - 24 * hour) env.highLatencyMs
    latencySparkline := sparkline.latency
    lossSparkline := sparkline.loss }

def getSetting (s : State F) : Except AppError ℕ :=
  match s.probeInterval with
  | none => .ok 60
  | some (.ok interval) => .ok interval
  | some (.error e) => .error (.internal s!"Failed to deserialize config: {e}")

def getOverview (hash : Hash) (env : Env F) (s : State F) : Except AppError (List (ServerOverview F)) := do
  let serverIds := s.servers.map Server.id
  let interval ← getSetting s
  let bucketSeconds := max (interval : ℤ) 60
  let sparklines := querySparklines env s serverIds bucketSeconds
  return serverIds.map fun serverId => overviewOf hash env s sparklines serverId

end ServerBee.Status
