/-
What the public status surface reads (`entity/*.rs`, `service/agent_manager.rs`), and its scope (`service/public_status.rs`).

A table is the list of its rows, in the order in which a query without an order reads them. A column of server ids is what its
text reads as: an error, or `none` where the code makes nothing of it, if it is no list of ids. Instants are whole nanoseconds,
dates are days; both stand for the texts that the answers show. Numbers are of any type with the operations that the code and SQLite
use of `f64`, of which no law is taken. A `HashSet` gives its members in an order of its own. No statement fails, and a request sees
one state at one instant.
-/
import Mathlib.Data.Int.Notation
import Mathlib.Data.List.Dedup

namespace ServerBee.Status

/-- what is used of `f64` -/
class Real64 (F : Type) extends Sub F, Mul F, Div F where
  ofInt : ℤ → F
  /-- a literal of the code, over a power of ten -/
  ofDecimal : ℤ → ℕ → F
  epsilon : F
  abs : F → F
  lt : F → F → Bool
  le : F → F → Bool
  /-- SQLite's `AVG` of one or more numbers -/
  avg : List F → F

def second : ℤ := 1000000000
def hour : ℤ := 3600 * second
def day : ℤ := 24 * hour

/-! ## Rows -/

structure Server where
  id : String
  name : String
  groupId : Option String
  region : Option String
  countryCode : Option String
  publicRemark : Option String
  os : Option String
  hidden : Bool
  memTotal : Option ℤ
  swapTotal : Option ℤ
  diskTotal : Option ℤ
  cpuName : Option String
  cpuCores : Option ℤ
  cpuArch : Option String
  kernelVersion : Option String
  agentVersion : Option String
deriving DecidableEq, Repr

structure SystemReport (F : Type) where
  cpu : F
  memUsed : ℤ
  swapUsed : ℤ
  diskUsed : ℤ
  /-- bytes read and written per second, by device -/
  diskIo : Option (List (ℕ × ℕ))
  netInSpeed : ℤ
  netOutSpeed : ℤ
  netInTransfer : ℤ
  netOutTransfer : ℤ
  load1 : F
  load5 : F
  load15 : F
  tcpConn : ℤ
  udpConn : ℤ
  processCount : ℤ
  uptime : ℕ
deriving DecidableEq, Repr

/-- `status_page`, of which there is one row -/
structure StatusPage (F : Type) where
  title : String
  description : Option String
  /-- a blank text is an empty list -/
  serverIds : Except String (List String)
  enabled : Bool
  defaultLayout : String
  showServerDetail : Bool
  showNetwork : Bool
  showIpQuality : Bool
  showIncidents : Bool
  showMaintenance : Bool
  uptimeYellowThreshold : F
  uptimeRedThreshold : F
deriving DecidableEq, Repr

structure Maintenance where
  id : String
  title : String
  description : Option String
  startAt : ℤ
  endAt : ℤ
  /-- NULL, or a text -/
  serverIds : Option (Option (List String))
  isPublic : Bool
  active : Bool
deriving DecidableEq, Repr

structure Incident where
  id : String
  title : String
  status : String
  severity : String
  isPublic : Bool
  createdAt : ℤ
  resolvedAt : Option ℤ
deriving DecidableEq, Repr

structure IncidentUpdate where
  id : String
  incidentId : String
  status : String
  message : String
  createdAt : ℤ
deriving DecidableEq, Repr

structure UnlockService where
  id : String
  key : String
  name : String
  category : String
  popularity : ℤ
  isBuiltin : Bool
  enabled : Bool
deriving DecidableEq, Repr

structure UnlockResult where
  serverId : String
  serviceId : String
  status : String
  region : Option String
  latencyMs : Option ℤ
  detail : Option String
  checkedAt : ℤ
deriving DecidableEq, Repr

structure IpQualitySnapshot where
  serverId : String
  ip : String
  country : Option String
  ipType : String
  riskScore : Option ℤ
  riskLevel : String
  checkedAt : ℤ
deriving DecidableEq, Repr

/-- a row of `records` or `records_hourly` -/
structure Record (F : Type) where
  serverId : String
  time : ℤ
  cpu : F
  memUsed : ℤ
  diskUsed : ℤ
  netInSpeed : ℤ
  netOutSpeed : ℤ
  netInTransfer : ℤ
  netOutTransfer : ℤ
  load1 : F
  load5 : F
  load15 : F
  tcpConn : ℤ
  udpConn : ℤ
  processCount : ℤ
  temperature : Option F
  gpuUsage : Option F
deriving DecidableEq, Repr

structure UptimeDaily where
  serverId : String
  date : ℤ
  totalMinutes : ℤ
  onlineMinutes : ℤ
  downtimeIncidents : ℤ
deriving DecidableEq, Repr

/-- a target of the probes, built in or from the table -/
structure Target where
  id : String
  name : String
  provider : String
deriving DecidableEq, Repr

structure ProbeConfig where
  serverId : String
  targetId : String
deriving DecidableEq, Repr

structure ProbeRecord (F : Type) where
  id : ℕ
  serverId : String
  targetId : String
  avgLatency : Option F
  minLatency : Option F
  maxLatency : Option F
  packetLoss : F
  timestamp : ℤ
deriving DecidableEq, Repr

structure State (F : Type) where
  servers : List Server
  /-- the primary key -/
  servers_nodup : (servers.map Server.id).Nodup
  /-- the name of a group -/
  groups : String → Option String
  statusPage : Option (StatusPage F)
  maintenances : List Maintenance
  incidents : List Incident
  incidentUpdates : List IncidentUpdate
  unlockServices : List UnlockService
  unlockResults : List UnlockResult
  snapshots : List IpQualitySnapshot
  records : List (Record F)
  recordsHourly : List (Record F)
  uptimeDaily : List UptimeDaily
  /-- the interval of the probe setting -/
  probeInterval : Option (Except String ℕ)
  probeTargets : List Target
  probeConfigs : List ProbeConfig
  probeRecords : List (ProbeRecord F)
  /-- the servers with a connection -/
  online : String → Bool
  latestReports : String → Option (SystemReport F)

/-- what the program has beside the state -/
structure Env (F : Type) where
  now : ℤ
  presets : List Target
  highLatencyMs : F
  veryHighLatencyMs : F

/-- the orders in which the sets of a request give what was put in: of the scope, and of the targets of a server -/
structure Hash where
  scope : List String → List String
  scope_perm : ∀ ids, (scope ids).Perm ids.dedup
  targets : String → List String → List String
  targets_perm : ∀ serverId ids, (targets serverId ids).Perm ids.dedup

/-- sets that give what was put in as it came -/
def inOrder : Hash where
  scope := List.dedup
  scope_perm := fun _ => List.Perm.refl _
  targets := fun _ => List.dedup
  targets_perm := fun _ _ => List.Perm.refl _

inductive AppError where
  | notFound (text : String)
  | forbidden (text : String)
  | internal (text : String)
  | validation (text : String)
deriving DecidableEq, Repr

/-! ## Queries -/

/-- `WHERE server_id = ?` -/
def rowsOf {ρ : Type} (serverId : ρ → String) (rows : List ρ) (id : String) : List ρ := rows.filter fun r => serverId r == id

/-- the entry of a `HashMap` that was collected from a list -/
def lookupLast {ρ : Type} (p : ρ → Bool) (rows : List ρ) : Option ρ := rows.reverse.find? p

/-- `ORDER BY .. ASC` -/
def orderBy {ρ : Type} (key : ρ → ℤ) (rows : List ρ) : List ρ := rows.mergeSort fun r r' => decide (key r ≤ key r')

/-- `ORDER BY .. DESC` -/
def orderByDesc {ρ : Type} (key : ρ → ℤ) (rows : List ρ) : List ρ := rows.mergeSort fun r r' => decide (key r' ≤ key r)

/-! ## The scope -/

variable {F : Type}

structure PublicScope (F : Type) where
  config : StatusPage F
  serverIds : List String

def PublicScope.contains (scope : PublicScope F) (id : String) : Bool := scope.serverIds.any fun serverId => serverId == id

def loadConfig (s : State F) : Except AppError (StatusPage F) :=
  match s.statusPage with
  | some page => .ok page
  | none => .error (.notFound "status_page singleton row missing")

def liveIds (s : State F) : List String := (s.servers.filter fun srv => !srv.hidden).map Server.id

/-- an empty selection is every server that is not hidden -/
def resolveScope (s : State F) (hash : Hash) : Except AppError (PublicScope F) := do
  let config ← loadConfig s
  match config.serverIds with
  | .error e => .error (.internal s!"invalid server_ids_json: {e}")
  | .ok selected =>
    if selected.isEmpty then return ⟨config, hash.scope (liveIds s)⟩
    else return ⟨config, selected.filter fun id => (liveIds s).contains id⟩

/-- `MaintenanceService::is_in_maintenance` covers a server -/
def Maintenance.covers (m : Maintenance) (id : String) : Bool :=
  match m.serverIds with
  | none => true
  | some ids => (ids.getD []).isEmpty || (ids.getD []).contains id

def Maintenance.isCurrent (m : Maintenance) (now : ℤ) : Bool := m.active && decide (m.startAt ≤ now) && decide (now ≤ m.endAt)

def isInMaintenance (s : State F) (id : String) (now : ℤ) : Bool :=
  (s.maintenances.filter fun m => m.isCurrent now).any fun m => m.covers id

end ServerBee.Status
