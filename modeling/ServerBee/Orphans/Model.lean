/-
The clean-up of servers that never reported (`router/api/server.rs`), over the tables that name servers in a list.

A clean-up reads its candidates, deletes those that are still there (`delete_servers`), and takes them out of the lists in one
transaction; between these steps anything else may happen, and it may stop after any of them. The lock of the task scheduler lets one
clean-up run at a time. A list that is no list of ids reads as in `Status.Tables`.
-/
import ServerBee.Status.Scope

namespace ServerBee.Orphans

open Status

variable {F : Type}

/-- a row with a list of servers that may be no list -/
structure Task where
  id : String
  serverIds : Option (List String)
deriving DecidableEq, Repr

structure TaskResult where
  taskId : String
  serverId : String
deriving DecidableEq, Repr

structure PingTask where
  id : String
  serverIds : Option (List String)
deriving DecidableEq, Repr

structure AlertRule where
  id : String
  coverType : String
  /-- NULL, or a text -/
  serverIds : Option (Option (List String))
deriving DecidableEq, Repr

structure AlertState where
  ruleId : String
  serverId : String
deriving DecidableEq, Repr

structure ServiceMonitor where
  id : String
  serverIds : Option (Option (List String))
deriving DecidableEq, Repr

structure IncidentServers where
  id : String
  serverIds : Option (Option (List String))
deriving DecidableEq, Repr

/-- how far a clean-up has come -/
inductive Cleanup where
  | idle
  | collected (ids : List String)
  | deleted (ids : List String)
deriving DecidableEq, Repr

structure St (F : Type) where
  base : State F
  tasks : List Task
  taskResults : List TaskResult
  pingTasks : List PingTask
  alertRules : List AlertRule
  alertStates : List AlertState
  serviceMonitors : List ServiceMonitor
  incidents : List IncidentServers
  cleanup : Cleanup

/-! ## Lists of servers -/

/-- `remove_ids_from_json`: nothing when no id is removed -/
def removeIds (ids : Option (List String)) (orphanIds : List String) : Option (List String) :=
  let filtered := (ids.getD []).filter fun id => !orphanIds.contains id
  if filtered.length = (ids.getD []).length then none else some filtered

/-- what the loop over a table makes of a row; `write` says what becomes of one whose list got shorter -/
def pruneRow {ρ : Type} (serverIds : ρ → Option (List String)) (write : ρ → List String → Option ρ) (orphanIds : List String)
    (r : ρ) : Option ρ :=
  match removeIds (serverIds r) orphanIds with
  | none => some r
  | some ids => write r ids

def pruneTable {ρ : Type} (serverIds : ρ → Option (List String)) (write : ρ → List String → Option ρ) (orphanIds : List String)
    (rows : List ρ) : List ρ := rows.filterMap (pruneRow serverIds write orphanIds)

def pruneTasks (orphanIds : List String) : List Task → List Task :=
  pruneTable Task.serverIds (fun task ids => if ids = [] then none else some { task with serverIds := some ids }) orphanIds

def prunePingTasks (orphanIds : List String) : List PingTask → List PingTask :=
  pruneTable PingTask.serverIds (fun task ids => if ids = [] then none else some { task with serverIds := some ids }) orphanIds

def pruneAlertRules (orphanIds : List String) : List AlertRule → List AlertRule :=
  pruneTable (fun rule => rule.serverIds.join)
    (fun rule ids => if ids = [] then none else some { rule with serverIds := some (some ids) }) orphanIds

def pruneMaintenances (orphanIds : List String) : List Maintenance → List Maintenance :=
  pruneTable (fun m => m.serverIds.join)
    (fun m ids => if ids = [] then none else some { m with serverIds := some (some ids) }) orphanIds

/-- a monitor stays, with NULL for an empty list -/
def pruneServiceMonitors (orphanIds : List String) : List ServiceMonitor → List ServiceMonitor :=
  pruneTable (fun monitor => monitor.serverIds.join)
    (fun monitor ids => some { monitor with serverIds := if ids = [] then none else some (some ids) }) orphanIds

/-- an incident stays, with whatever is left -/
def pruneIncidents (orphanIds : List String) : List IncidentServers → List IncidentServers :=
  pruneTable (fun incident => incident.serverIds.join) (fun incident ids => some { incident with serverIds := some (some ids) })
    orphanIds

/-- the page stays, with whatever is left -/
def prunePage (orphanIds : List String) (page : StatusPage F) : StatusPage F :=
  match removeIds page.serverIds.toOption orphanIds with
  | none => page
  | some ids => { page with serverIds := .ok ids }

/-- `cleanup_json_array_tables` -/
def cleanupJsonArrayTables (s : St F) (orphanIds : List String) : St F :=
  let emptied := fun (rule : AlertRule) => removeIds rule.serverIds.join orphanIds == some []
  let deletedRuleIds := (s.alertRules.filter emptied).map AlertRule.id
  { s with
    base :=
      { s.base with
        statusPage := s.base.statusPage.map (prunePage orphanIds)
        maintenances := pruneMaintenances orphanIds s.base.maintenances }
    pingTasks := prunePingTasks orphanIds s.pingTasks
    alertRules := pruneAlertRules orphanIds s.alertRules
    alertStates := s.alertStates.filter fun state => !deletedRuleIds.contains state.ruleId
    serviceMonitors := pruneServiceMonitors orphanIds s.serviceMonitors
    incidents := pruneIncidents orphanIds s.incidents }

/-- `remove_server_references`: a list that is none stops it -/
def removeServerReferences (s : St F) (orphanIds : List String) : Option (St F) :=
  if s.tasks.any fun task => task.serverIds.isNone then none
  else
    let emptied := fun (task : Task) => removeIds task.serverIds orphanIds == some []
    let deletedTaskIds := (s.tasks.filter emptied).map Task.id
    some { s with
      tasks := pruneTasks orphanIds s.tasks
      taskResults := s.taskResults.filter fun result => !deletedTaskIds.contains result.taskId }

/-- the transaction at the end of a clean-up -/
def removeReferences (s : St F) (orphanIds : List String) : Option (St F) :=
  (removeServerReferences s orphanIds).map fun s => cleanupJsonArrayTables s orphanIds

/-! ## Servers -/

/-- `collect_orphan_server_ids` over the candidates -/
def isOrphan (s : State F) (srv : Server) : Bool := srv.name == "New Server" && srv.os.isNone && !s.online srv.id

def collectOrphanServerIds (s : State F) : List String := (s.servers.filter fun srv => isOrphan s srv).map Server.id

theorem nodup_filter {servers : List Server} (h : (servers.map Server.id).Nodup) (p : Server → Bool) :
    ((servers.filter p).map Server.id).Nodup := (List.filter_sublist.map Server.id).nodup h

/-- `delete_servers`: the rows, their sockets, and what belongs to them -/
def deleteServers (s : St F) (ids : List String) : St F :=
  let existing := (s.base.servers.map Server.id).filter fun id => ids.contains id
  let stays := fun id => !existing.contains id
  { s with
    base :=
      { s.base with
        servers := s.base.servers.filter fun srv => stays srv.id
        servers_nodup := nodup_filter s.base.servers_nodup _
        online := fun id => s.base.online id && stays id
        latestReports := fun id => if stays id then s.base.latestReports id else none
        records := s.base.records.filter fun r => stays r.serverId
        recordsHourly := s.base.recordsHourly.filter fun r => stays r.serverId
        uptimeDaily := s.base.uptimeDaily.filter fun r => stays r.serverId
        unlockResults := s.base.unlockResults.filter fun r => stays r.serverId
        snapshots := s.base.snapshots.filter fun r => stays r.serverId
        probeConfigs := s.base.probeConfigs.filter fun r => stays r.serverId
        probeRecords := s.base.probeRecords.filter fun r => stays r.serverId }
    taskResults := s.taskResults.filter fun result => stays result.serverId
    alertStates := s.alertStates.filter fun state => stays state.serverId }

/-! ## Steps -/

theorem nodup_register {servers : List Server} (h : (servers.map Server.id).Nodup) {srv : Server}
    (hfresh : (servers.any fun srv' => srv'.id == srv.id) = false) : ((servers ++ [srv]).map Server.id).Nodup := by
  rw [List.map_append, List.nodup_append]
  refine ⟨h, List.nodup_singleton _, ?_⟩
  intro id hid id' hid' heq
  obtain ⟨srv', hsrv', rfl⟩ := List.mem_map.1 hid
  have hnew : id' = srv.id := by simpa using hid'
  have hne := List.any_eq_false.1 hfresh srv' hsrv'
  rw [heq, hnew] at hne
  simp at hne

theorem nodup_edit {servers : List Server} (h : (servers.map Server.id).Nodup) (srv : Server) :
    ((servers.map fun srv' => if srv'.id = srv.id then srv else srv').map Server.id).Nodup := by
  have hids : (servers.map fun srv' => if srv'.id = srv.id then srv else srv').map Server.id = servers.map Server.id := by
    rw [List.map_map]
    apply List.map_congr_left
    intro srv' _
    by_cases hid : srv'.id = srv.id
    · simp [hid]
    · simp [hid]
  rwa [hids]

inductive Op (F : Type) where
  /-- a row with an id of its own -/
  | register (srv : Server)
  /-- a row is written again: hidden, shown, named, or with what its agent reports -/
  | edit (srv : Server)
  | connect (id : String)
  | disconnect (id : String)
  | delete (ids : List String)
  /-- an administrator writes the page -/
  | writePage (page : StatusPage F)
  /-- the candidates are read -/
  | collect
  /-- those still there are deleted -/
  | remove
  /-- the lists are pruned, in one transaction -/
  | prune
  /-- the clean-up stops where it is -/
  | abandon

def step (s : St F) : Op F → St F
  | .register srv =>
    if h : (s.base.servers.any fun srv' => srv'.id == srv.id) = false then
      { s with base := { s.base with servers := s.base.servers ++ [srv], servers_nodup := nodup_register s.base.servers_nodup h } }
    else s
  | .edit srv =>
    { s with
      base :=
        { s.base with
          servers := s.base.servers.map fun srv' => if srv'.id = srv.id then srv else srv'
          servers_nodup := nodup_edit s.base.servers_nodup srv } }
  | .connect id => { s with base := { s.base with online := fun id' => s.base.online id' || id' == id } }
  | .disconnect id => { s with base := { s.base with online := fun id' => s.base.online id' && id' != id } }
  | .delete ids => deleteServers s ids
  | .writePage page => { s with base := { s.base with statusPage := s.base.statusPage.map fun _ => page } }
  | .collect =>
    match s.cleanup with
    | .idle =>
      let orphanIds := collectOrphanServerIds s.base
      if orphanIds = [] then s else { s with cleanup := .collected orphanIds }
    | _ => s
  | .remove =>
    match s.cleanup with
    | .collected orphanIds =>
      let deletedIds := (s.base.servers.map Server.id).filter fun id => orphanIds.contains id
      let s := deleteServers s orphanIds
      if deletedIds = [] then { s with cleanup := .idle } else { s with cleanup := .deleted deletedIds }
    | _ => s
  | .prune =>
    match s.cleanup with
    | .deleted deletedIds => { (removeReferences s deletedIds).getD s with cleanup := .idle }
    | _ => s
  | .abandon => { s with cleanup := .idle }

def run (s : St F) (ops : List (Op F)) : St F := ops.foldl step s

end ServerBee.Orphans
