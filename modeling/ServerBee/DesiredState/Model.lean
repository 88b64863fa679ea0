/-
Full-state agent configuration (`service/agent_reconcile.rs`, without the firewall; the reads of `service/network_probe.rs`
and `service/ip_quality.rs`).

A task is a call: a mutation, which commits its changes and then reconciles, or a reconcile of one agent in every domain,
with or without new capabilities recorded before it. A reconcile waits for its domain's lock and then runs its script, one
read or send a step. `sent` is all that was ever put on the channel of an agent's present connection. The capabilities of a
connection are seeded when it is admitted.
-/
import ServerBee.Firewall.Distribution
import ServerBee.Lib.Run
import ServerBee.Lib.Script

namespace ServerBee.DesiredState

open ServerBee.Lib
open ServerBee.Firewall (hasCapability)

/-! ## Tables -/

structure PingTask where
  id : ℕ
  probeType : String
  target : String
  interval : ℤ
  /-- `server_ids_json`; `none`: not a list of strings -/
  serverIds : Option (List ℕ)
  enabled : Bool
deriving DecidableEq, Repr

structure NetworkProbeSetting where
  interval : ℕ
  packetCount : ℕ
deriving DecidableEq, Repr

/-- also a preset target -/
structure TargetDto where
  id : ℕ
  name : String
  target : String
  probeType : String
deriving DecidableEq, Repr

structure NetworkProbeConfig where
  serverId : ℕ
  targetId : ℕ
deriving DecidableEq, Repr

structure ProbeDb where
  /-- `none`: not set -/
  setting : Option NetworkProbeSetting
  configs : List NetworkProbeConfig
  targets : List TargetDto

/-- an interval that `update_setting` accepts -/
abbrev CheckInterval := {hours : ℤ // 1 ≤ hours ∧ hours ≤ 168}

structure UnlockService where
  id : ℕ
  key : String
  enabled : Bool
  detector : Option String
  /-- `none`: no text, or one that is no request -/
  request : Option String
  rules : Option (List String)
deriving DecidableEq, Repr

structure IpQualityDb where
  services : List UnlockService
  /-- `none`: no row -/
  checkInterval : Option CheckInterval

structure Db where
  pings : List PingTask
  probes : ProbeDb
  ipQuality : IpQualityDb

/-! ## Messages -/

structure PingTaskConfig where
  taskId : ℕ
  probeType : String
  target : String
  interval : ℕ
deriving DecidableEq, Repr

structure UnlockServiceDef where
  id : ℕ
  key : String
  detector : Option String
  request : Option String
  rules : Option (List String)
deriving DecidableEq, Repr

inductive Domain where
  | pingTasks
  | networkProbes
  | ipQuality
deriving DecidableEq, Repr

inductive Msg where
  | pingTasksSync (tasks : List PingTaskConfig)
  | networkProbeSync (targets : List TargetDto) (interval packetCount : ℕ)
  | ipQualitySync (services : List UnlockServiceDef) (intervalHours : ℕ)
deriving DecidableEq, Repr

def Msg.domain : Msg → Domain
  | .pingTasksSync _ => .pingTasks
  | .networkProbeSync _ _ _ => .networkProbes
  | .ipQualitySync _ _ => .ipQuality

/-! ## Projections -/

def capPingIcmp : ℕ := 8
def capPingTcp : ℕ := 16
def capPingHttp : ℕ := 32
def capDefault : ℕ := 1852

def probeTypeToCap (probeType : String) : Option ℕ :=
  if probeType = "icmp" then some capPingIcmp
  else if probeType = "tcp" then some capPingTcp
  else if probeType = "http" then some capPingHttp
  else none

/-- one task of `ping_configs_for_agent` -/
def pingConfigForAgent (serverId capabilities : ℕ) (task : PingTask) : Option PingTaskConfig :=
  match task.serverIds with
  | none => none
  | some serverIds =>
    if ¬ serverIds.isEmpty ∧ ¬ serverIds.contains serverId then none
    else
      match probeTypeToCap task.probeType with
      | none => none
      | some capability =>
        if ¬ hasCapability capabilities capability then none
        else if task.interval < 0 then none
        else some ⟨task.id, task.probeType, task.target, task.interval.toNat⟩

def pingConfigsForAgent (tasks : List PingTask) (serverId capabilities : ℕ) : List PingTaskConfig :=
  tasks.filterMap (pingConfigForAgent serverId capabilities)

def ipQualityIntervalHours (value : ℤ) : Option ℕ := if value < 0 then none else some value.toNat

def UnlockService.toDef (s : UnlockService) : UnlockServiceDef := ⟨s.id, s.key, s.detector, s.request, s.rules⟩

/-! ## Reads -/

/-- what a reconcile can read: the database, and the server's memory -/
structure View where
  db : Db
  /-- `servers.capabilities`; `none`: no row, or a negative value -/
  mirror : ℕ → Option ℕ
  connected : List ℕ
  agentLocalCapabilities : ℕ → Option ℕ

abbrev Reconcile := Script View ℕ Msg

def Db.pingTasks (db : Db) : List PingTask := db.pings.filter fun t => t.enabled

/-- `NetworkProbeService::get_setting` -/
def Db.probeSetting (db : Db) : NetworkProbeSetting := db.probes.setting.getD ⟨60, 10⟩

def Db.targetIds (db : Db) (serverId : ℕ) : List ℕ :=
  (db.probes.configs.filter fun c => c.serverId == serverId).map NetworkProbeConfig.targetId

def Db.enabledServiceDefs (db : Db) : List UnlockServiceDef :=
  (db.ipQuality.services.filter fun s => s.enabled).map UnlockService.toDef

/-- `IpQualityService::get_setting` -/
def Db.checkIntervalHours (db : Db) : ℤ := (db.ipQuality.checkInterval.map Subtype.val).getD 12

section Scripts

variable (presets : ℕ → Option TargetDto)

/-- the database's targets among `ids`, as they are read after the configuration -/
def Db.dbTargets (db : Db) (ids : List ℕ) : List TargetDto :=
  db.probes.targets.filter fun t => (ids.filter fun id => (presets id).isNone).contains t.id

/-- `send_ping_tasks` -/
def sendPingTasks (serverId : ℕ) (tasks : List PingTask) (capabilities : ℕ) (k : Reconcile) : Reconcile :=
  .send serverId (.pingTasksSync (pingConfigsForAgent tasks serverId capabilities)) k

/-- `send_network_probes`, with `get_server_targets`; in a fan-out an error does not stop the others -/
def sendNetworkProbes (serverId : ℕ) (setting : NetworkProbeSetting) (k : Reconcile) : Reconcile :=
  .query (fun v =>
    let ids := v.db.targetIds serverId
    if (ids.filter fun id => (presets id).isNone).isEmpty then
      .send serverId (.networkProbeSync (ids.filterMap presets) setting.interval setting.packetCount) k
    else
      .query (fun v => .send serverId (.networkProbeSync (ids.filterMap presets ++ v.db.dbTargets presets ids)
        setting.interval setting.packetCount) k) k) k

/-- `load_ip_quality` -/
def loadIpQuality (k : List UnlockServiceDef → ℕ → Reconcile) : Reconcile :=
  .query (fun v =>
    .query (fun v' =>
      match ipQualityIntervalHours v'.db.checkIntervalHours with
      | none => .done
      | some hours => k v.db.enabledServiceDefs hours) .done) .done

/-- `capabilities_for_agent` -/
def capabilitiesForAgent (serverId : ℕ) (k : ℕ → Reconcile) : Reconcile :=
  .look fun v =>
    match v.agentLocalCapabilities serverId with
    | some capabilities => k capabilities
    | none => .query (fun v => k ((v.mirror serverId).getD capDefault)) .done

/-- `reconcile_connected`, once it holds the lock -/
def reconcileConnected : Domain → Reconcile
  | .pingTasks =>
    .look fun v => .query (fun v₁ => .query (fun v₂ => .look fun v₃ =>
      .forEach v.connected fun serverId k => sendPingTasks serverId v₁.db.pingTasks
        (((v₃.agentLocalCapabilities serverId).or (v₂.mirror serverId)).getD capDefault) k) .done) .done
  | .networkProbes =>
    .look fun v => .query (fun v₁ =>
      .forEach v.connected fun serverId k => sendNetworkProbes presets serverId v₁.db.probeSetting k) .done
  | .ipQuality =>
    .look fun v => loadIpQuality fun services hours =>
      .forEach v.connected fun serverId k => .send serverId (.ipQualitySync services hours) k

/-- `reconcile_agent`, once it holds the lock -/
def reconcileAgent (serverId : ℕ) : Domain → Reconcile
  | .pingTasks => .query (fun v =>
      capabilitiesForAgent serverId fun capabilities => sendPingTasks serverId v.db.pingTasks capabilities .done) .done
  | .networkProbes => .query (fun v => sendNetworkProbes presets serverId v.db.probeSetting .done) .done
  | .ipQuality => loadIpQuality fun services hours => .send serverId (.ipQualitySync services hours) .done

end Scripts

/-! ## Tasks -/

/-- a committed change of a domain's tables, by what has to be reconciled after it: every connected agent, or one -/
inductive Change : Domain → Option ℕ → Type where
  | pings (f : List PingTask → List PingTask) : Change .pingTasks none
  | probes (f : ProbeDb → ProbeDb) : Change .networkProbes none
  /-- `set_server_targets` -/
  | serverTargets (serverId : ℕ) (targetIds : List ℕ) : Change .networkProbes (some serverId)
  | ipQuality (f : IpQualityDb → IpQualityDb) : Change .ipQuality none

def Change.apply {d : Domain} {scope : Option ℕ} (db : Db) : Change d scope → Db
  | .pings f => { db with pings := f db.pings }
  | .probes f => { db with probes := f db.probes }
  | .serverTargets serverId targetIds =>
    { db with probes := { db.probes with
        configs := (db.probes.configs.filter fun c => c.serverId != serverId) ++ targetIds.map fun id => ⟨serverId, id⟩ } }
  | .ipQuality f => { db with ipQuality := f db.ipQuality }

def View.commit {d : Domain} {scope : Option ℕ} (v : View) (change : Change d scope) : View :=
  { v with db := change.apply v.db }

/-- `update_agent_local_capabilities` -/
def View.record (v : View) (serverId : ℕ) (capabilities : Option ℕ) : View :=
  { v with agentLocalCapabilities := Function.update v.agentLocalCapabilities serverId capabilities }

inductive Task where
  | idle
  /-- a mutation with the changes that it has still to commit -/
  | mutating (d : Domain) (scope : Option ℕ) (changes : List (Change d scope))
  | recording (serverId : ℕ) (capabilities : ℕ)
  /-- before the lock of `d`; `rest` are the domains to reconcile after it -/
  | waiting (scope : Option ℕ) (d : Domain) (rest : List Domain)
  | holding (scope : Option ℕ) (d : Domain) (rest : List Domain)

structure Sys where
  view : View
  /-- the scripts of the holders of the locks -/
  held : Domain → Option Reconcile
  tasks : ℕ → Task
  sent : ℕ → List Msg

def Sys.see (s : Sys) (v : View) : Sys := { s with view := v }

def Sys.goto (s : Sys) (t : ℕ) (task : Task) : Sys := { s with tasks := Function.update s.tasks t task }

def Sys.hold (s : Sys) (d : Domain) (p : Option Reconcile) : Sys := { s with held := Function.update s.held d p }

/-- `send_if_online` -/
def Sys.emit (s : Sys) : Option (ℕ × Msg) → Sys
  | none => s
  | some (serverId, m) =>
    if serverId ∈ s.view.connected then { s with sent := Function.update s.sent serverId (s.sent serverId ++ [m]) } else s

/-- after a reconcile of one domain -/
def nextDomain (scope : Option ℕ) : List Domain → Task
  | [] => .idle
  | d :: rest => .waiting scope d rest

section Step

variable (presets : ℕ → Option TargetDto)

def program (scope : Option ℕ) (d : Domain) : Reconcile :=
  match scope with
  | none => reconcileConnected presets d
  | some serverId => reconcileAgent presets serverId d

/-- `reconcile_connection` -/
def connectionTask (serverId : ℕ) : Task := .waiting (some serverId) .pingTasks [.networkProbes, .ipQuality]

def Sys.advance (s : Sys) (t : ℕ) (ok : Bool) : Sys :=
  match s.tasks t with
  | .idle => s
  | .mutating d scope [] => s.goto t (.waiting scope d [])
  | .mutating d scope (change :: changes) =>
    (s.see (s.view.commit change)).goto t (.mutating d scope changes)
  | .recording serverId capabilities =>
    (s.see (s.view.record serverId (some capabilities))).goto t (connectionTask serverId)
  | .waiting scope d rest =>
    match s.held d with
    | some _ => s
    | none => (s.hold d (some (program presets scope d))).goto t (.holding scope d rest)
  | .holding scope d rest =>
    match s.held d with
    | none => s
    | some p =>
      if p.isDone then (s.hold d none).goto t (nextDomain scope rest)
      else (s.hold d (some (p.step ok s.view).2)).emit (p.step ok s.view).1

/-! ## The machine -/

inductive Call where
  | mutation (d : Domain) (scope : Option ℕ) (changes : List (Change d scope))
  | capabilities (serverId : ℕ) (caps : ℕ)
  | connection (serverId : ℕ)

def Call.task : Call → Task
  | .mutation d scope changes => .mutating d scope changes
  | .capabilities serverId caps => .recording serverId caps
  | .connection serverId => connectionTask serverId

inductive Op where
  | start (t : ℕ) (call : Call)
  | advance (t : ℕ) (ok : Bool)
  /-- an agent is admitted on a new channel, its capabilities seeded from the mirror -/
  | connect (serverId : ℕ) (capabilities : ℕ)
  | disconnect (serverId : ℕ)
  | mirror (serverId : ℕ) (capabilities : Option ℕ)

def step (s : Sys) : Op → Sys
  | .start t call =>
    match s.tasks t with
    | .idle => s.goto t call.task
    | _ => s
  | .advance t ok => s.advance presets t ok
  | .connect serverId capabilities =>
    let v := s.view.record serverId (some capabilities)
    { s with
      view := { v with connected := serverId :: v.connected.filter fun n => n != serverId }
      sent := Function.update s.sent serverId [] }
  | .disconnect serverId =>
    let v := s.view.record serverId none
    s.see { v with connected := v.connected.filter fun n => n != serverId }
  | .mirror serverId capabilities => s.see { s.view with mirror := Function.update s.view.mirror serverId capabilities }

end Step

end ServerBee.DesiredState
