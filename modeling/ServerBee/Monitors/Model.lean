/-
Checks of service monitors (`monitor_check.rs`: `MonitorCheckRunner::{run_check, try_acquire, notify,
any_server_in_maintenance}`, `service_monitor.rs`: `insert_record`, `update_check_state`).

Each call of `run_check`, from the scheduler or from the manual trigger, is a call in flight that takes its steps in any order
with the others: the slot is taken, the row is read, the checker answers, the transaction runs, and the notification is sent.
A statement that fails ends the call, and the slot is released. `records` holds the committed results of a monitor, in order,
and `sent` what was handed to `send_group`. The counters of the rows are 32-bit integers that wrap. The rest of a record, and
the rest of a row, which no check reads, is not here.
-/
import Mathlib.Logic.Function.Basic
import ServerBee.Lib.Run

namespace ServerBee.Monitors

/-! ## Rows and results -/

structure Monitor where
  id : String
  name : String
  monitorType : String
  notificationGroupId : Option String
  retryCount : Int32
  serverIds : Option (List String)
  lastStatus : Option Bool
  consecutiveFailures : Int32
deriving DecidableEq, Repr

structure CheckResult where
  success : Bool
  error : Option String
deriving DecidableEq, Repr

inductive Event where
  | triggered
  | recovered
deriving DecidableEq, Repr

structure NotifyContext where
  serverName : String
  serverId : String
  ruleName : String
  event : Event
  message : String
deriving DecidableEq, Repr

namespace Monitor

/-- the failures in a row, with this result -/
def nextFailures (monitor : Monitor) (result : CheckResult) : Int32 :=
  if result.success then 0 else monitor.consecutiveFailures + 1

def updateCheckState (monitor : Monitor) (success : Bool) (consecutiveFailures : Int32) : Monitor :=
  { monitor with lastStatus := some success, consecutiveFailures := consecutiveFailures }

def context (monitor : Monitor) (event : Event) (message : String) : NotifyContext :=
  ⟨monitor.name, monitor.id, s!"{monitor.name} ({monitor.monitorType})", event, message⟩

def failureCrossedThreshold (monitor : Monitor) (result : CheckResult) (consecutiveFailures : Int32) : Bool :=
  !result.success && decide (consecutiveFailures > monitor.retryCount)

def recovered (monitor : Monitor) (result : CheckResult) : Bool :=
  result.success && monitor.lastStatus == some false

/-- what `notify` sends to which group, maintenance apart; the monitor is the row before the check -/
def notification (monitor : Monitor) (result : CheckResult) (consecutiveFailures : Int32) : Option (String × NotifyContext) :=
  match monitor.notificationGroupId with
  | none => none
  | some groupId =>
    if monitor.failureCrossedThreshold result consecutiveFailures then
      let errorMsg := result.error.getD "Unknown error"
      some (groupId, monitor.context .triggered
        s!"Service monitor '{monitor.name}' failed after {consecutiveFailures} consecutive failures: {errorMsg}")
    else if monitor.recovered result then
      some (groupId, monitor.context .recovered
        s!"Service monitor '{monitor.name}' has recovered after {monitor.consecutiveFailures} consecutive failures")
    else none

/-- `isInMaintenance` of a server is `none` where its query fails -/
def anyServerInMaintenance (monitor : Monitor) (isInMaintenance : String → Option Bool) : Bool :=
  match monitor.serverIds with
  | none => false
  | some serverIds => serverIds.any fun sid => (isInMaintenance sid).getD false

end Monitor

/-! ## Calls -/

inductive Stage where
  /-- the slot is taken -/
  | acquired
  /-- the row was read -/
  | checking (monitor : Monitor)
  | checked (monitor : Monitor) (result : CheckResult)
  /-- the transaction was committed -/
  | committed (monitor : Monitor) (result : CheckResult) (consecutiveFailures : Int32)
deriving DecidableEq, Repr

structure Call where
  id : String
  stage : Stage
deriving DecidableEq, Repr

/-- the statements of the transaction -/
inductive Statement where
  | begin
  | insertRecord
  | updateCheckState
  | commit
deriving DecidableEq, Repr

structure State where
  rows : String → Option Monitor
  records : String → List CheckResult
  sent : String → List (String × NotifyContext)
  inFlight : List String
  calls : List Call

inductive Op where
  | runCheck (id : String)
  | get (call : ℕ) (fails : Bool)
  | check (call : ℕ) (result : CheckResult)
  | transaction (call : ℕ) (failing : Option Statement)
  | notify (call : ℕ) (isInMaintenance : String → Option Bool)

namespace State

/-- the call returns, and its guard is dropped -/
def finish (s : State) (k : ℕ) (id : String) : State :=
  { s with calls := s.calls.eraseIdx k, inFlight := s.inFlight.filter fun other => decide (other ≠ id) }

def advance (s : State) (k : ℕ) (id : String) (stage : Stage) : State := { s with calls := s.calls.set k ⟨id, stage⟩ }

def step (s : State) : Op → State
  | .runCheck id =>
    if s.inFlight.contains id then s else { s with inFlight := id :: s.inFlight, calls := s.calls ++ [⟨id, .acquired⟩] }
  | .get k fails =>
    match s.calls[k]? with
    | some ⟨id, .acquired⟩ =>
      match s.rows id with
      | some monitor => if fails then s.finish k id else s.advance k id (.checking monitor)
      | none => s.finish k id
    | _ => s
  | .check k result =>
    match s.calls[k]? with
    | some ⟨id, .checking monitor⟩ => s.advance k id (.checked monitor result)
    | _ => s
  | .transaction k failing =>
    match s.calls[k]? with
    | some ⟨id, .checked monitor result⟩ =>
      match failing with
      | some _ => s.finish k id
      | none =>
        let consecutiveFailures := monitor.nextFailures result
        { s.advance k id (.committed monitor result consecutiveFailures) with
          records := Function.update s.records id (s.records id ++ [result])
          rows := Function.update s.rows id ((s.rows id).map fun row => row.updateCheckState result.success consecutiveFailures) }
    | _ => s
  | .notify k isInMaintenance =>
    match s.calls[k]? with
    | some ⟨id, .committed monitor result consecutiveFailures⟩ =>
      let sends := if monitor.anyServerInMaintenance isInMaintenance then none
        else monitor.notification result consecutiveFailures
      { s.finish k id with sent := Function.update s.sent id (s.sent id ++ sends.toList) }
    | _ => s

end State

/-- a monitor as `create` writes it -/
def Created (id : String) (monitor : Monitor) : Prop :=
  monitor.id = id ∧ monitor.lastStatus = none ∧ monitor.consecutiveFailures = 0

/-- no check was made yet -/
def start (monitors : String → Option Monitor) : State := ⟨monitors, fun _ => [], fun _ => [], [], []⟩

end ServerBee.Monitors
