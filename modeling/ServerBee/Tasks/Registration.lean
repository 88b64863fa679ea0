/-
Scheduled tasks and their jobs (`service/task_scheduler.rs`: `update_task`, `delete_task` and the `TaskScheduler` under them).

A task is a row of `tasks`; a job is an entry of the third-party `JobScheduler`, and `job_map` says which job is the task's.
Both calls hold `lifecycle_lock`, so a call is one step. Every database statement and every `add` and `remove` of the
scheduler may fail, without an effect (`Faults`). What third-party code decides (which cron expressions it accepts, and the
next run) is a parameter `Cron`.

An active model remembers of each column whether it is set; `update` writes the columns that are (`ActiveValue`).
-/
import Mathlib.Tactic
import ServerBee.Lib.Run

namespace ServerBee.Tasks

open ServerBee.Lib

/-! ## Rows -/

/-- the columns of a task that updates read or write; instants are ℤ -/
structure Task where
  id : String
  command : String
  serverIds : List String
  taskType : String
  name : Option String
  cronExpression : Option String
  enabled : Bool
  timeout : Option ℤ
  retryCount : ℤ
  retryInterval : ℤ
  nextRunAt : Option ℤ
deriving DecidableEq, Repr

/-- `sea_orm::ActiveValue` -/
inductive ActiveValue (α : Type) where
  | set (a : α)
  | unchanged (a : α)

/-- what UPDATE leaves in a column -/
def ActiveValue.write {α : Type} : ActiveValue α → α → α
  | .set a, _ => a
  | .unchanged _, old => old

/-- `task::ActiveModel` -/
structure ActiveTask where
  id : ActiveValue String
  command : ActiveValue String
  serverIds : ActiveValue (List String)
  taskType : ActiveValue String
  name : ActiveValue (Option String)
  cronExpression : ActiveValue (Option String)
  enabled : ActiveValue Bool
  timeout : ActiveValue (Option ℤ)
  retryCount : ActiveValue ℤ
  retryInterval : ActiveValue ℤ
  nextRunAt : ActiveValue (Option ℤ)

/-- `Model::into` -/
def Task.into (t : Task) : ActiveTask where
  id := .unchanged t.id
  command := .unchanged t.command
  serverIds := .unchanged t.serverIds
  taskType := .unchanged t.taskType
  name := .unchanged t.name
  cronExpression := .unchanged t.cronExpression
  enabled := .unchanged t.enabled
  timeout := .unchanged t.timeout
  retryCount := .unchanged t.retryCount
  retryInterval := .unchanged t.retryInterval
  nextRunAt := .unchanged t.nextRunAt

/-- the row after `ActiveModel::update`; the id is the WHERE clause and is not written -/
def ActiveTask.update (m : ActiveTask) (row : Task) : Task where
  id := row.id
  command := m.command.write row.command
  serverIds := m.serverIds.write row.serverIds
  taskType := m.taskType.write row.taskType
  name := m.name.write row.name
  cronExpression := m.cronExpression.write row.cronExpression
  enabled := m.enabled.write row.enabled
  timeout := m.timeout.write row.timeout
  retryCount := m.retryCount.write row.retryCount
  retryInterval := m.retryInterval.write row.retryInterval
  nextRunAt := m.nextRunAt.write row.nextRunAt

/-! ## Jobs -/

/-- the scheduler crate at the time of a call -/
structure Cron where
  /-- `Job::new_async_tz` accepts the expression -/
  valid : String → Bool
  /-- `next_tick_utc` -/
  nextRunAt : String → Option ℤ

/-- `rows` is the table by id, `results` the number of stored results of a task, `jobMap` the job of a task, `scheduler` the
expression of a job, `running` the active runs; job ids below `fresh` are drawn -/
structure State where
  rows : String → Option Task
  results : String → ℕ
  jobMap : String → Option ℕ
  scheduler : ℕ → Option String
  running : String → Bool
  fresh : ℕ

/-- the statements of a call that fail -/
structure Faults where
  find : Bool
  write : Bool
  remove : Bool
  add : Bool
  rollback : Bool
  restoreAdd : Bool
  start : Bool
  deleteResults : Bool
  deleteTask : Bool
  commit : Bool
deriving DecidableEq, Repr

def Faults.none : Faults := ⟨false, false, false, false, false, false, false, false, false, false⟩

def addJob (cron : Cron) (fails : Bool) (task : Task) (s : State) : Except String Unit × State :=
  if (s.jobMap task.id).isSome then (.error s!"Scheduled task {task.id} is already registered", s)
  else
    match task.cronExpression with
    | none => (.error "Missing cron_expression", s)
    | some expression =>
      if !cron.valid expression then (.error "Invalid cron expression", s)
      else if fails then (.error "Failed to add job", s)
      else
        (.ok (), { s with
          scheduler := Function.update s.scheduler s.fresh (some expression)
          jobMap := Function.update s.jobMap task.id (some s.fresh)
          fresh := s.fresh + 1 })

/-- the active run is cancelled also when the scheduler does not remove the job -/
def removeJob (fails : Bool) (taskId : String) (s : State) : Except String Unit × State :=
  let cancelled := { s with running := Function.update s.running taskId false }
  match s.jobMap taskId with
  | none => (.ok (), cancelled)
  | some job =>
    if fails then (.error "Failed to remove job", cancelled)
    else
      (.ok (), { cancelled with
        scheduler := Function.update s.scheduler job none
        jobMap := Function.update s.jobMap taskId none })

def updateJob (cron : Cron) (f : Faults) (task : Task) (s : State) : Except String Unit × State :=
  match removeJob f.remove task.id s with
  | (.error e, s) => (.error e, s)
  | (.ok (), s) => if task.enabled then addJob cron f.add task s else (.ok (), s)

def restoreJob (cron : Cron) (fails : Bool) (task : Task) (s : State) : Except String Unit × State :=
  if task.taskType = "scheduled" ∧ task.enabled = true ∧ s.jobMap task.id = none then addJob cron fails task s
  else (.ok (), s)

/-! ## Calls -/

structure UpdateTaskRequest where
  name : Option String
  command : Option String
  serverIds : Option (List String)
  cronExpression : Option String
  enabled : Option Bool
  timeout : Option ℤ
  retryCount : Option ℤ
  retryInterval : Option ℤ
deriving DecidableEq, Repr

/-- the columns that no check stands before -/
def setTexts (input : UpdateTaskRequest) (model : ActiveTask) : ActiveTask where
  id := model.id
  command := (input.command.map .set).getD model.command
  serverIds := (input.serverIds.map .set).getD model.serverIds
  taskType := model.taskType
  name := (input.name.map fun name => .set (some name)).getD model.name
  cronExpression := model.cronExpression
  enabled := model.enabled
  timeout := model.timeout
  retryCount := model.retryCount
  retryInterval := model.retryInterval
  nextRunAt := model.nextRunAt

def setCron (cron : Cron) (input : UpdateTaskRequest) (model : ActiveTask) : Except String ActiveTask :=
  match input.cronExpression with
  | none => .ok model
  | some expression =>
    if !cron.valid expression then .error "Invalid cron expression"
    else .ok { model with cronExpression := .set (some expression), nextRunAt := .set (cron.nextRunAt expression) }

/-- an enabled task gets its next run anew, from the new expression or the old one -/
def setEnabled (cron : Cron) (input : UpdateTaskRequest) (existing : Task) (model : ActiveTask) : ActiveTask :=
  match input.enabled with
  | none => model
  | some false => { model with enabled := .set false }
  | some true =>
    match input.cronExpression.or existing.cronExpression with
    | none => { model with enabled := .set true }
    | some expression => { model with enabled := .set true, nextRunAt := .set (cron.nextRunAt expression) }

def setTimeout (input : UpdateTaskRequest) (model : ActiveTask) : Except String ActiveTask :=
  match input.timeout with
  | none => .ok model
  | some timeout => if timeout < 1 then .error "timeout must be >= 1" else .ok { model with timeout := .set (some timeout) }

def setRetryCount (input : UpdateTaskRequest) (model : ActiveTask) : Except String ActiveTask :=
  match input.retryCount with
  | none => .ok model
  | some count =>
    if 0 ≤ count ∧ count ≤ 10 then .ok { model with retryCount := .set count }
    else .error "retry_count must be between 0 and 10"

def setRetryInterval (input : UpdateTaskRequest) (model : ActiveTask) : Except String ActiveTask :=
  match input.retryInterval with
  | none => .ok model
  | some interval =>
    if interval < 1 then .error "retry_interval must be >= 1" else .ok { model with retryInterval := .set interval }

/-- the active model that `update_task` writes -/
def UpdateTaskRequest.apply (cron : Cron) (input : UpdateTaskRequest) (existing : Task) : Except String ActiveTask := do
  let model ← setCron cron input (setTexts input existing.into)
  let model ← setTimeout input (setEnabled cron input existing model)
  let model ← setRetryCount input model
  setRetryInterval input model

/-- the answer of a call; whether its compensation lost the row or the job is only logged -/
structure Outcome where
  result : Except String Unit
  rowLost : Bool
  jobLost : Bool

def Outcome.of (result : Except String Unit) : Outcome := ⟨result, false, false⟩

/-- a call failed, and its job was restored from `task` -/
def restored (cron : Cron) (f : Faults) (e : String) (task : Task) (s : State) : Outcome × State :=
  match restoreJob cron f.restoreAdd task s with
  | (.error _, s) => (⟨.error e, false, true⟩, s)
  | (.ok (), s) => (.of (.error e), s)

def updateTask (cron : Cron) (f : Faults) (id : String) (input : UpdateTaskRequest) (s : State) : Outcome × State :=
  if f.find then (.of (.error "database error"), s)
  else
    match s.rows id with
    | none => (.of (.error s!"Task {id} not found"), s)
    | some existing =>
      match input.apply cron existing with
      | .error e => (.of (.error e), s)
      | .ok model =>
        if f.write then (.of (.error "database error"), s)
        else
          let updated := model.update existing
          let s := { s with rows := Function.update s.rows id (some updated) }
          if updated.taskType = "scheduled" then
            match updateJob cron f updated s with
            | (.ok (), s) => (.of (.ok ()), s)
            | (.error e, s) =>
              if f.rollback then (⟨.error e, true, false⟩, s)
              else
                -- the backup is converted, so this UPDATE finds no column to write and returns the row as it is
                let row := existing.into.update updated
                let s := { s with rows := Function.update s.rows id (some row) }
                restored cron f e row s
          else (.of (.ok ()), s)

def deleteTask (cron : Cron) (f : Faults) (id : String) (s : State) : Outcome × State :=
  if f.find then (.of (.error "database error"), s)
  else
    let existing := s.rows id
    match removeJob f.remove id s with
    | (.error e, s) => (.of (.error e), s)
    | (.ok (), s) =>
      if f.start || f.deleteResults || f.deleteTask || f.commit then
        match existing with
        | none => (.of (.error "database error"), s)
        | some task => restored cron f "database error" task s
      else
        (.of (.ok ()), { s with rows := Function.update s.rows id none, results := Function.update s.results id 0 })

inductive Op where
  | update (cron : Cron) (f : Faults) (id : String) (input : UpdateTaskRequest)
  | delete (cron : Cron) (f : Faults) (id : String)

def call (s : State) : Op → Outcome × State
  | .update cron f id input => updateTask cron f id input s
  | .delete cron f id => deleteTask cron f id s

def step (s : State) (op : Op) : State := (call s op).2

end ServerBee.Tasks
