/-
The public status surface (`service/public_status.rs`) behind its gates (`router/api/status.rs`).

`answer` is what a handler returns once the rate limit has let the request in. The scope is resolved for the gate and again by the
function behind it; both see the same state, and of the first only its members matter.
-/
import ServerBee.Status.Network

namespace ServerBee.Status

variable {F : Type} [Real64 F]

/-! ## Answers -/

structure PublicStatusConfig (F : Type) where
  enabled : Bool
  title : String
  description : Option String
  defaultLayout : String
  showServerDetail : Bool
  showNetwork : Bool
  showIpQuality : Bool
  showIncidents : Bool
  showMaintenance : Bool
  uptimeYellowThreshold : F
  uptimeRedThreshold : F

structure PublicMetricsSummary (F : Type) where
  cpu : F
  memUsed : ℕ
  memTotal : ℕ
  swapUsed : ℕ
  swapTotal : ℕ
  diskUsed : ℕ
  diskTotal : ℕ
  diskReadBytesPerSec : ℕ
  diskWriteBytesPerSec : ℕ
  netInSpeed : ℕ
  netOutSpeed : ℕ
  netInTransfer : ℕ
  netOutTransfer : ℕ
  load1 : F
  load5 : F
  load15 : F
  tcpConn : ℕ
  udpConn : ℕ
  processCount : ℕ
  uptime : ℕ

structure UptimeDailyEntry where
  date : ℤ
  totalMinutes : ℤ
  onlineMinutes : ℤ
  downtimeIncidents : ℤ
deriving DecidableEq, Repr

structure PublicServerSummary (F : Type) where
  id : String
  name : String
  groupName : Option String
  region : Option String
  countryCode : Option String
  online : Bool
  inMaintenance : Bool
  publicRemark : Option String
  os : Option String
  metrics : Option (PublicMetricsSummary F)
  uptimePercent : Option F
  uptimeDaily : List UptimeDailyEntry

structure PublicServerDetail (F : Type) where
  summary : PublicServerSummary F
  cpuName : Option String
  cpuCores : Option ℕ
  cpuArch : Option String
  kernelVersion : Option String
  agentVersion : Option String
  memTotal : Option ℕ
  diskTotal : Option ℕ
  processCount : Option ℕ
  tcpConn : Option ℕ
  udpConn : Option ℕ

structure PublicMetricsPoint (F : Type) where
  time : ℤ
  cpu : F
  memUsed : ℤ
  diskUsed : ℤ
  netInSpeed : ℤ
  netOutSpeed : ℤ
  netInTransfer : ℤ
  netOutTransfer : ℤ
  load1 : F
  load5 : F
  load15 : F
  tcpConn : ℤ
  udpConn : ℤ
  processCount : ℤ
  temperature : Option F
  gpuUsage : Option F

structure PublicIpQualitySnapshot where
  country : Option String
  ipType : String
  riskScore : Option ℤ
  riskLevel : String
  checkedAt : ℤ
deriving DecidableEq, Repr

structure PublicUnlockResult where
  serviceId : String
  status : String
  region : Option String
  latencyMs : Option ℤ
  checkedAt : ℤ
deriving DecidableEq, Repr

structure PublicIpQualityEntry where
  serverId : String
  ipQuality : Option PublicIpQualitySnapshot
  unlockResults : List PublicUnlockResult
deriving DecidableEq, Repr

structure PublicIpQualityServiceMeta where
  id : String
  key : String
  name : String
  category : String
  popularity : ℤ
  isBuiltin : Bool
deriving DecidableEq, Repr

structure PublicIncidentUpdate where
  id : String
  status : String
  message : String
  createdAt : ℤ
deriving DecidableEq, Repr

structure PublicIncident where
  id : String
  title : String
  severity : String
  status : String
  createdAt : ℤ
  resolvedAt : Option ℤ
  updates : List PublicIncidentUpdate
deriving DecidableEq, Repr

structure PublicMaintenance where
  id : String
  title : String
  description : Option String
  startAt : ℤ
  endAt : ℤ
deriving DecidableEq, Repr

inductive Request where
  | config
  | servers
  | server (id : String)
  | metrics (id : String) (since till : ℤ) (interval : String)
  | uptimeDaily (id : String)
  | network
  | networkServer (id : String)
  | ipQuality
  | incidents
  | maintenances
deriving DecidableEq, Repr

inductive Response (F : Type) where
  | config (config : PublicStatusConfig F)
  | servers (servers : List (PublicServerSummary F))
  | server (detail : PublicServerDetail F)
  | metrics (points : List (PublicMetricsPoint F))
  | uptimeDaily (entries : List UptimeDailyEntry)
  | network (servers : List (ServerOverview F))
  | networkServer (summary : ServerSummary F) (anomalies : List (NetworkProbeAnomaly F))
  | ipQuality (entries : List PublicIpQualityEntry) (services : List PublicIpQualityServiceMeta)
  | incidents (active recent : List PublicIncident)
  | maintenances (rows : List PublicMaintenance)

/-- the check of an id, in a handler and again in the function behind it -/
def gateScopeId (scope : PublicScope F) (id : String) : Except AppError Unit :=
  if !scope.contains id then .error (.notFound "server") else .ok ()

/-! ## Servers -/

def toPublicConfig (model : StatusPage F) : PublicStatusConfig F :=
  { enabled := model.enabled, title := model.title, description := model.description, defaultLayout := model.defaultLayout,
    showServerDetail := model.showServerDetail, showNetwork := model.showNetwork, showIpQuality := model.showIpQuality,
    showIncidents := model.showIncidents, showMaintenance := model.showMaintenance,
    uptimeYellowThreshold := model.uptimeYellowThreshold, uptimeRedThreshold := model.uptimeRedThreshold }

/-- a `u64` sum that stays at its maximum -/
def saturatingAdd (a b : ℕ) : ℕ := min (a + b) 0xffffffffffffffff

def aggregateDiskIo (report : SystemReport F) : ℕ × ℕ :=
  match report.diskIo with
  | none => (0, 0)
  | some devices => devices.foldl (fun total d => (saturatingAdd total.1 d.1, saturatingAdd total.2 d.2)) (0, 0)

def reportToMetrics (report : SystemReport F) (memTotal swapTotal diskTotal : ℤ) : PublicMetricsSummary F :=
  { cpu := report.cpu
    memUsed := report.memUsed.toNat
    memTotal := memTotal.toNat
    swapUsed := report.swapUsed.toNat
    swapTotal := swapTotal.toNat
    diskUsed := report.diskUsed.toNat
    diskTotal := diskTotal.toNat
    diskReadBytesPerSec := (aggregateDiskIo report).1
    diskWriteBytesPerSec := (aggregateDiskIo report).2
    netInSpeed := report.netInSpeed.toNat
    netOutSpeed := report.netOutSpeed.toNat
    netInTransfer := report.netInTransfer.toNat
    netOutTransfer := report.netOutTransfer.toNat
    load1 := report.load1
    load5 := report.load5
    load15 := report.load15
    tcpConn := report.tcpConn.toNat
    udpConn := report.udpConn.toNat
    processCount := report.processCount.toNat
    uptime := report.uptime }

def uptimePercent (daily : List UptimeDailyEntry) : Option F :=
  let total := daily.foldl (fun total entry => total + entry.totalMinutes) 0
  let online := daily.foldl (fun online entry => online + entry.onlineMinutes) 0
  if total = 0 then none else some (Real64.ofInt online / Real64.ofInt total * Real64.ofInt 100)

/-- exactly `days` entries up to today; a day without a row is zero -/
def getDailyFilled (env : Env F) (s : State F) (serverId : String) (days : ℕ) : List UptimeDailyEntry :=
  let today := env.now / day
  let startDate := today - (days - 1)
  let records := orderBy UptimeDaily.date ((rowsOf UptimeDaily.serverId s.uptimeDaily serverId).filter fun r =>
    decide (startDate ≤ r.date) && decide (r.date ≤ today))
  (List.range days).map fun i =>
    match lookupLast (fun r => decide (r.date = startDate + i)) records with
    | some r => ⟨startDate + i, r.totalMinutes, r.onlineMinutes, r.downtimeIncidents⟩
    | none => ⟨startDate + i, 0, 0, 0⟩

def buildSummary (srv : Server) (online inMaintenance : Bool) (groupName : Option String) (metrics : Option (PublicMetricsSummary F))
    (uptimeDaily : List UptimeDailyEntry) : PublicServerSummary F :=
  { id := srv.id, name := srv.name, groupName := groupName, region := srv.region, countryCode := srv.countryCode, online := online,
    inMaintenance := inMaintenance, publicRemark := srv.publicRemark, os := srv.os, metrics := metrics,
    uptimePercent := uptimePercent uptimeDaily, uptimeDaily := uptimeDaily }

/-- what `list_servers` and `get_server_detail` gather for a row -/
def summaryOf (env : Env F) (s : State F) (srv : Server) : PublicServerSummary F :=
  let metrics := (s.latestReports srv.id).map fun r =>
    reportToMetrics r (srv.memTotal.getD 0) (srv.swapTotal.getD 0) (srv.diskTotal.getD 0)
  buildSummary srv (s.online srv.id) (isInMaintenance s srv.id env.now) (srv.groupId.bind s.groups) metrics
    (getDailyFilled env s srv.id 90)

/-- a row leaves the map when its id comes; an id that comes again is passed over -/
def listServers (hash : Hash) (env : Env F) (s : State F) : Except AppError (List (PublicServerSummary F)) := do
  let scope ← resolveScope s hash
  let rows := s.servers.filter fun srv => scope.contains srv.id
  let found := Lib.drain (fun _ srv => srv) none (fun id => lookupLast (fun srv => srv.id == id) rows) scope.serverIds
  return (found.filterMap id).map (summaryOf env s)

def getServerDetail (hash : Hash) (env : Env F) (s : State F) (id : String) : Except AppError (PublicServerDetail F) := do
  let scope ← resolveScope s hash
  gateScopeId scope id
  match s.servers.find? fun srv => srv.id == id with
  | none => throw (.notFound "server")
  | some srv =>
    let latest := s.latestReports srv.id
    return {
      summary := summaryOf env s srv
      cpuName := srv.cpuName
      cpuCores := srv.cpuCores.map Int.toNat
      cpuArch := srv.cpuArch
      kernelVersion := srv.kernelVersion
      agentVersion := srv.agentVersion
      memTotal := srv.memTotal.map Int.toNat
      diskTotal := srv.diskTotal.map Int.toNat
      processCount := latest.map fun r => r.processCount.toNat
      tcpConn := latest.map fun r => r.tcpConn.toNat
      udpConn := latest.map fun r => r.udpConn.toNat }

/-! ## Metrics and uptime -/

def clampPublicMetricsFrom (since till : ℤ) (interval : String) : Except AppError ℤ :=
  if till < since then .error (.validation "`from` must not be after `to`")
  else
    let usesRaw := interval == "raw" || (interval != "hourly" && decide (till - since ≤ 24 * hour))
    let maxWindow := if usesRaw then 25 * hour else 120 * day
    if maxWindow < till - since then .ok (till - maxWindow) else .ok since

/-- `select_history_table` says hourly -/
def readsHourly (interval : String) (since till : ℤ) : Bool :=
  interval == "hourly" || (interval != "raw" && decide (24 * hour < till - since))

def queryHistory (s : State F) (serverId : String) (since till : ℤ) (interval : String) : List (Record F) :=
  let table := if readsHourly interval since till then s.recordsHourly else s.records
  orderBy Record.time ((rowsOf Record.serverId table serverId).filter fun r => decide (since ≤ r.time) && decide (r.time ≤ till))

def toPoint (r : Record F) : PublicMetricsPoint F :=
  { time := r.time, cpu := r.cpu, memUsed := r.memUsed, diskUsed := r.diskUsed, netInSpeed := r.netInSpeed,
    netOutSpeed := r.netOutSpeed, netInTransfer := r.netInTransfer, netOutTransfer := r.netOutTransfer, load1 := r.load1,
    load5 := r.load5, load15 := r.load15, tcpConn := r.tcpConn, udpConn := r.udpConn, processCount := r.processCount,
    temperature := r.temperature, gpuUsage := r.gpuUsage }

def getServerMetrics (hash : Hash) (s : State F) (id : String) (since till : ℤ) (interval : String) :
    Except AppError (List (PublicMetricsPoint F)) := do
  let scope ← resolveScope s hash
  gateScopeId scope id
  let since ← clampPublicMetricsFrom since till interval
  return (queryHistory s id since till interval).map toPoint

def getServerUptimeDaily (hash : Hash) (env : Env F) (s : State F) (id : String) : Except AppError (List UptimeDailyEntry) := do
  let scope ← resolveScope s hash
  gateScopeId scope id
  return getDailyFilled env s id 90

/-! ## Network -/

def networkOverview (hash : Hash) (env : Env F) (s : State F) : Except AppError (List (ServerOverview F)) := do
  let scope ← resolveScope s hash
  let all ← getOverview hash env s
  return all.filter fun overview => scope.contains overview.serverId

def networkServerDetail (hash : Hash) (env : Env F) (s : State F) (id : String) :
    Except AppError (ServerSummary F × List (NetworkProbeAnomaly F)) := do
  let scope ← resolveScope s hash
  gateScopeId scope id
  let summary ← getServerSummary env s id
  return (summary, getAnomalies env s id (env.now - 24 * hour) env.now)

/-! ## IP quality -/

def snapshotToPublic (snap : IpQualitySnapshot) : PublicIpQualitySnapshot :=
  ⟨snap.country, snap.ipType, snap.riskScore, snap.riskLevel, snap.checkedAt⟩

def unlockToPublic (r : UnlockResult) : PublicUnlockResult := ⟨r.serviceId, r.status, r.region, r.latencyMs, r.checkedAt⟩

/-- `IpQualityService::get_summaries`, with the two maps as one -/
def getSummaries (s : State F) (serverIds : List String) : List (String × List UnlockResult × Option IpQualitySnapshot) :=
  let allResults := s.unlockResults.filter fun r => serverIds.contains r.serverId
  let allSnapshots := s.snapshots.filter fun snap => serverIds.contains snap.serverId
  Lib.drain (fun id found => (id, found)) ([], none)
    (fun id => (rowsOf UnlockResult.serverId allResults id, lookupLast (fun snap => snap.serverId == id) allSnapshots)) serverIds

/-- `ORDER BY category ASC, popularity DESC` -/
def inCatalog (u u' : UnlockService) : Bool :=
  decide (u.category < u'.category) || (u.category == u'.category && decide (u'.popularity ≤ u.popularity))

def ipQualityOverview (hash : Hash) (s : State F) :
    Except AppError (List PublicIpQualityEntry × List PublicIpQualityServiceMeta) := do
  let scope ← resolveScope s hash
  let entries := (getSummaries s scope.serverIds).map fun d =>
    PublicIpQualityEntry.mk d.1 (d.2.2.map snapshotToPublic) (d.2.1.map unlockToPublic)
  let services := ((s.unlockServices.filter UnlockService.enabled).mergeSort inCatalog).map fun u =>
    PublicIpQualityServiceMeta.mk u.id u.key u.name u.category u.popularity u.isBuiltin
  return (entries, services)

/-! ## Incidents and maintenances -/

/-- active are those not resolved, recent those resolved within seven days -/
def listIncidents (env : Env F) (s : State F) : List PublicIncident × List PublicIncident :=
  let publicRows := orderByDesc Incident.createdAt (s.incidents.filter Incident.isPublic)
  let ids := publicRows.map Incident.id
  let allUpdates := orderBy IncidentUpdate.createdAt (s.incidentUpdates.filter fun u => ids.contains u.incidentId)
  let updatesOf := fun id => (rowsOf IncidentUpdate.incidentId allUpdates id).map fun u =>
    PublicIncidentUpdate.mk u.id u.status u.message u.createdAt
  let toDto := fun (r : Incident) => PublicIncident.mk r.id r.title r.severity r.status r.createdAt r.resolvedAt (updatesOf r.id)
  let active := publicRows.filter fun r => r.status != "resolved"
  let recent := publicRows.filter fun r => r.status == "resolved" && r.resolvedAt.any fun t => decide (env.now - 7 * day ≤ t)
  (active.map toDto, recent.map toDto)

def listMaintenances (env : Env F) (s : State F) : List PublicMaintenance :=
  let rows := s.maintenances.filter fun m => m.isPublic && m.active && decide (env.now ≤ m.endAt)
  (orderBy Maintenance.startAt rows).map fun m => ⟨m.id, m.title, m.description, m.startAt, m.endAt⟩

/-! ## Handlers -/

def resolveEnabledScope (hash : Hash) (s : State F) : Except AppError (PublicScope F) := do
  let scope ← resolveScope s hash
  if !scope.config.enabled then .error (.forbidden "public_status_disabled") else .ok scope

def gateSubpage (scope : PublicScope F) (toggle : StatusPage F → Bool) : Except AppError Unit :=
  if !toggle scope.config then .error (.forbidden "public_status_panel_disabled") else .ok ()

def answer (hash : Hash) (env : Env F) (s : State F) : Request → Except AppError (Response F)
  | .config => do
    let config ← loadConfig s
    return .config (toPublicConfig config)
  | .servers => do
    let _ ← resolveEnabledScope hash s
    return .servers (← listServers hash env s)
  | .server id => do
    let scope ← resolveEnabledScope hash s
    gateSubpage scope StatusPage.showServerDetail
    gateScopeId scope id
    return .server (← getServerDetail hash env s id)
  | .metrics id since till interval => do
    let scope ← resolveEnabledScope hash s
    gateSubpage scope StatusPage.showServerDetail
    gateScopeId scope id
    return .metrics (← getServerMetrics hash s id since till interval)
  | .uptimeDaily id => do
    let scope ← resolveEnabledScope hash s
    gateScopeId scope id
    return .uptimeDaily (← getServerUptimeDaily hash env s id)
  | .network => do
    let scope ← resolveEnabledScope hash s
    gateSubpage scope StatusPage.showNetwork
    return .network (← networkOverview hash env s)
  | .networkServer id => do
    let scope ← resolveEnabledScope hash s
    gateSubpage scope StatusPage.showNetwork
    gateScopeId scope id
    let detail ← networkServerDetail hash env s id
    return .networkServer detail.1 detail.2
  | .ipQuality => do
    let scope ← resolveEnabledScope hash s
    gateSubpage scope StatusPage.showIpQuality
    let overview ← ipQualityOverview hash s
    return .ipQuality overview.1 overview.2
  | .incidents => do
    let scope ← resolveEnabledScope hash s
    gateSubpage scope StatusPage.showIncidents
    let rows := listIncidents env s
    return .incidents rows.1 rows.2
  | .maintenances => do
    let scope ← resolveEnabledScope hash s
    gateSubpage scope StatusPage.showMaintenance
    return .maintenances (listMaintenances env s)

end ServerBee.Status
