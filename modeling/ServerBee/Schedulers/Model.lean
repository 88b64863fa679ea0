/-
The agent's probe schedulers (`network_prober.rs`: `NetworkProber::{sync, stop_all}`, `pinger.rs`: `PingManager::{sync,
stop_all}`).

Both filter the list that they get by the effective capabilities, stop the tasks whose id is not in it, and then settle its
entries one by one, in the way that is theirs. Tasks end by themselves between any two entries: `ends` holds, for each entry,
the tasks that end before it is settled. What a task does, and where its results go, is not here.
-/
import ServerBee.DesiredState.Model
import ServerBee.Lib.Handles

namespace ServerBee.Schedulers

open ServerBee.Lib
open ServerBee.DesiredState (probeTypeToCap)
open ServerBee.Firewall (hasCapability)

/-- the filter of `sync` -/
def permitted (caps : ℕ) (probeType : String) : Bool :=
  ((probeTypeToCap probeType).map fun cap => hasCapability caps cap).getD false

/-! ## The passes over the map -/

section Passes

variable {κ : Type}

/-- stop the tasks no longer in the list -/
def stopAbsent (idOf : κ → String) (m : Handles String κ) (configs : List κ) : Handles String κ :=
  ((m.tasks.map Prod.fst).filter fun id => !(configs.map idOf).contains id).foldl Handles.stop m

/-- start or restart tasks -/
def settle (entry : Handles String κ → κ → Handles String κ) :
    Handles String κ → List κ → List (List ℕ) → Handles String κ
  | m, [], _ => m
  | m, config :: configs, ends => settle entry (entry (m.finish (ends.headD [])) config) configs ends.tail

def reconcile (idOf : κ → String) (entry : Handles String κ → κ → Handles String κ) (m : Handles String κ) (configs : List κ)
    (ends : List (List ℕ)) : Handles String κ :=
  settle entry (stopAbsent idOf m configs) configs ends

/-- the map is drained, and each handle aborted -/
def stopAll (m : Handles String κ) : Handles String κ := (m.tasks.map Prod.fst).foldl Handles.stop m

end Passes

/-! ## `NetworkProber` -/

structure NetworkProbeTarget where
  targetId : String
  name : String
  target : String
  probeType : String
deriving DecidableEq, Repr

/-- `RunningTask` without its handle -/
structure RunningTask where
  target : NetworkProbeTarget
  interval : ℕ
  packetCount : ℕ
deriving DecidableEq, Repr

namespace RunningTask

def id (task : RunningTask) : String := task.target.targetId

/-- the two tasks probe the same address in the same way and at the same times -/
structure Agrees (task task' : RunningTask) : Prop where
  id : task.id = task'.id
  interval : task.interval = task'.interval
  packetCount : task.packetCount = task'.packetCount
  probeType : task.target.probeType = task'.target.probeType
  target : task.target.target = task'.target.target

end RunningTask

abbrev NetworkProber := Handles String RunningTask

namespace NetworkProber

/-- `should_restart`: the entry of the list is new, or its task exited, or its config changed -/
def shouldRestart (prober : NetworkProber) (config : RunningTask) : Bool :=
  match prober.get config.target.targetId with
  | none => true
  | some i =>
    match prober.spawned[i]? with
    | none => true
    | some existing =>
      prober.isFinished i || existing.config.interval != config.interval ||
        existing.config.packetCount != config.packetCount ||
        existing.config.target.probeType != config.target.probeType || existing.config.target.target != config.target.target

def settleEntry (prober : NetworkProber) (config : RunningTask) : NetworkProber :=
  if shouldRestart prober config then (prober.stop config.target.targetId).start RunningTask.id config else prober

/-- the tasks for the targets that the effective capabilities permit -/
def wanted (targets : List NetworkProbeTarget) (interval packetCount caps : ℕ) : List RunningTask :=
  (targets.filter fun t => permitted caps t.probeType).map fun t => ⟨t, interval, packetCount⟩

def sync (prober : NetworkProber) (targets : List NetworkProbeTarget) (interval packetCount caps : ℕ) (ends : List (List ℕ)) :
    NetworkProber :=
  reconcile RunningTask.id settleEntry prober (wanted targets interval packetCount caps) ends

inductive Op where
  | sync (targets : List NetworkProbeTarget) (interval packetCount caps : ℕ) (ends : List (List ℕ))
  | stopAll
  /-- tasks end by themselves -/
  | ended (tasks : List ℕ)

def step (prober : NetworkProber) : Op → NetworkProber
  | .sync targets interval packetCount caps ends => sync prober targets interval packetCount caps ends
  | .stopAll => stopAll prober
  | .ended tasks => prober.finish tasks

def run (ops : List Op) : NetworkProber := ops.foldl step Handles.empty

end NetworkProber

/-! ## `PingManager` -/

structure PingTaskConfig where
  taskId : String
  probeType : String
  target : String
  interval : ℕ
deriving DecidableEq, Repr

abbrev PingManager := Handles String PingTaskConfig

namespace PingManager

def settleEntry (manager : PingManager) (config : PingTaskConfig) : PingManager :=
  match manager.get config.taskId with
  | none => manager.start PingTaskConfig.taskId config
  | some i =>
    if manager.isFinished i then (manager.forget config.taskId).start PingTaskConfig.taskId config
    else (manager.stop config.taskId).start PingTaskConfig.taskId config

def wanted (configs : List PingTaskConfig) (caps : ℕ) : List PingTaskConfig :=
  configs.filter fun c => permitted caps c.probeType

def sync (manager : PingManager) (configs : List PingTaskConfig) (caps : ℕ) (ends : List (List ℕ)) : PingManager :=
  reconcile PingTaskConfig.taskId settleEntry manager (wanted configs caps) ends

inductive Op where
  | sync (configs : List PingTaskConfig) (caps : ℕ) (ends : List (List ℕ))
  | stopAll
  /-- tasks end by themselves -/
  | ended (tasks : List ℕ)

def step (manager : PingManager) : Op → PingManager
  | .sync configs caps ends => sync manager configs caps ends
  | .stopAll => stopAll manager
  | .ended tasks => manager.finish tasks

def run (ops : List Op) : PingManager := ops.foldl step Handles.empty

end PingManager

end ServerBee.Schedulers
