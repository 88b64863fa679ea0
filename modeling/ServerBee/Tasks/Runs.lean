/-
Runs of a scheduled task (`service/task_scheduler.rs`: `execute_scheduled_task`, `execute_for_server`;
`service/task_notification.rs`: `record_completion`, `finish_run`).

A run claims its task in `active_runs`, stores its row, dispatches to its targets one by one and leaves its executors to an
owner, which joins them, records the outcome and admits the notification. The guard of the claim is dropped when the run ends,
also by a failed statement. Everything interleaves between statements; a transaction is one step, and any statement may fail.

Run ids are ℕ, drawn in order. The reply of an agent, whether it may execute, and the registrations that a notification
reaches are given with a step. Stored ids of results grow, so `results` has them in order.
-/
import Mathlib.Data.List.Sort
import ServerBee.Lib.Run

namespace ServerBee.TaskRuns

open ServerBee.Lib

/-! ## Rows -/

inductive Status where
  | running
  | incomplete
  | drained
  | completed
deriving DecidableEq, Repr

/-- `TaskRunSummary` -/
structure Summary where
  taskId : String
  runId : ℕ
  total : ℕ
  failed : ℕ
  timedOut : ℕ
  offline : ℕ
  denied : ℕ
deriving DecidableEq, Repr

/-- `task_runs` -/
structure RunRow where
  taskId : String
  ownerId : String
  targets : List String
  status : Status
  completedAt : Option ℤ
  summary : Option Summary
deriving DecidableEq, Repr

/-- `task_results` -/
structure ResultRow where
  taskId : String
  runId : ℕ
  serverId : String
  attempt : ℕ
  exitCode : ℤ
deriving DecidableEq, Repr

/-- `serverIds` is `none` when the stored JSON is invalid -/
structure Task where
  createdBy : String
  serverIds : Option (List String)
  retryCount : ℤ
deriving DecidableEq, Repr

/-! ## Executors -/

/-- how a request to an agent ends; `timedOut` is the agent's own timeout text -/
inductive Reply where
  | taskResult (exitCode : ℤ) (timedOut : Bool)
  | offline
  | sendFailed
  | disconnected
  | timeout
  | unexpected
deriving DecidableEq, Repr

def Reply.storedCode : Reply → ℤ
  | .taskResult exitCode timedOut => if exitCode = -1 ∧ timedOut = true then -4 else exitCode
  | .offline | .sendFailed | .disconnected => -3
  | .timeout => -4
  | .unexpected => -1

def Reply.succeeded : Reply → Bool
  | .taskResult exitCode _ => exitCode == 0
  | _ => false

inductive Executor where
  | attempting (attempt : ℕ)
  | ended (ok : Bool)
deriving DecidableEq, Repr

def Executor.hasEnded : Executor → Bool
  | .attempting _ => false
  | .ended _ => true

/-! ## Runs -/

/-- what a run has read of its task -/
structure Plan where
  ownerId : String
  targets : List String
  maxAttempts : ℕ
deriving DecidableEq, Repr

/-- the next statement of a run -/
inductive Phase where
  | claimed (manual : Bool) (actor : Option String)
  | found (plan : Plan)
  | stored (plan : Plan)
  | updated (plan : Plan)
  | dispatching (plan : Plan) (rest : List String) (executors : List (String × Executor))
  | draining (plan : Plan) (executors : List (String × Executor))
  | recording (complete : Bool) (executors : List (String × Executor))
  | finishing
deriving DecidableEq, Repr

structure Run where
  taskId : String
  phase : Phase
  cancelled : Bool
deriving DecidableEq, Repr

/-- `active` is `active_runs`; a run that has ended has no entry in `runs`. `completions` is a history: the runs whose
notification was admitted. Run ids below `fresh` are drawn. -/
structure State where
  tasks : String → Option Task
  rows : ℕ → Option RunRow
  results : List ResultRow
  active : String → Option ℕ
  runs : ℕ → Option Run
  outbox : List (ℕ × ℕ)
  completions : List ℕ
  fresh : ℕ

def State.goto (s : State) (r : ℕ) (run : Run) (phase : Phase) : State :=
  { s with runs := Function.update s.runs r (some { run with phase := phase }) }

/-- `ActiveRunGuard::drop`; the executors of the run go with it -/
def State.release (s : State) (r : ℕ) (run : Run) : State :=
  { s with
    active := if s.active run.taskId = some r then Function.update s.active run.taskId none else s.active
    runs := Function.update s.runs r none }

def State.setRow (s : State) (r : ℕ) (row : RunRow) : State := { s with rows := Function.update s.rows r (some row) }

def State.writeResult (s : State) (row : ResultRow) : State := { s with results := s.results ++ [row] }

/-! ## Completion -/

/-- ordered by attempt, then by id -/
def runResults (results : List ResultRow) (taskId : String) (r : ℕ) : List ResultRow :=
  (results.filter fun row => row.taskId == taskId && row.runId == r).insertionSort fun a b => a.attempt ≤ b.attempt

/-- the last result of a server wins -/
def finalResult (results : List ResultRow) (taskId : String) (r : ℕ) (serverId : String) : Option ResultRow :=
  ((runResults results taskId r).filter fun row => row.serverId == serverId).getLast?

def Summary.count (summary : Summary) (exitCode : ℤ) : Summary :=
  if exitCode = 0 then summary
  else if exitCode = -2 then { summary with denied := summary.denied + 1 }
  else if exitCode = -3 then { summary with offline := summary.offline + 1 }
  else if exitCode = -4 then { summary with timedOut := summary.timedOut + 1 }
  else { summary with failed := summary.failed + 1 }

def summarize (final : String → Option ResultRow) (taskId : String) (r : ℕ) (targets : List String) : Summary :=
  targets.foldl (fun summary id => ((final id).map fun row => summary.count row.exitCode).getD summary)
    ⟨taskId, r, targets.length, 0, 0, 0, 0⟩

/-- `record_completion` -/
def recordCompletion (r : ℕ) (executorsComplete : Bool) (finishedAt : ℤ) (s : State) : State :=
  match s.rows r with
  | none => s
  | some run =>
    if run.status ≠ .running then s
    else
      let final := finalResult s.results run.taskId r
      if executorsComplete && !run.targets.isEmpty && run.targets.all fun id => (final id).isSome then
        s.setRow r { run with
          completedAt := some finishedAt
          status := .drained
          summary := some (summarize final run.taskId r run.targets) }
      else s.setRow r { run with completedAt := some finishedAt, status := .incomplete }

def Summary.isSuccess (summary : Summary) : Bool :=
  decide (0 < summary.total) && summary.failed == 0 && summary.timedOut == 0 && summary.offline == 0 && summary.denied == 0

local instance lawfulBEq_job : LawfulBEq (ℕ × ℕ) := inferInstance

/-- `finish_run`; `recipients` are the installations that an account has registered for the outcome -/
def finishRun (r : ℕ) (now : ℤ) (recipients : String → Bool → List ℕ) (s : State) : State :=
  match s.rows r with
  | none => s
  | some run =>
    if run.status ≠ .drained then s
    else
      match run.summary, run.completedAt with
      | some summary, some createdAt =>
        if summary.taskId ≠ run.taskId ∨ summary.runId ≠ r then s
        else
          let jobs := if createdAt + 1800 ≤ now then [] else recipients run.ownerId summary.isSuccess
          { s.setRow r { run with status := .completed } with
            completions := r :: s.completions
            outbox := s.outbox ++ (jobs.map fun installation => (r, installation)).filter fun job => job ∉ s.outbox }
      | _, _ => s

/-! ## Steps -/

inductive Op where
  | trigger (taskId : String) (manual : Bool) (actor : Option String)
  /-- the next statement of a run -/
  | advance (r : ℕ) (fails denied : Bool) (now : ℤ) (recipients : String → Bool → List ℕ)
  /-- an attempt of the executor at an index ends -/
  | execute (r i : ℕ) (reply : Reply) (fails : Bool)
  /-- the executor at an index does not join -/
  | panic (r i : ℕ)
  | cancel (taskId : String)
  /-- `recover_pending` -/
  | recover (r : ℕ) (now : ℤ) (recipients : String → Bool → List ℕ)
  | edit (taskId : String) (task : Task)
  /-- the rows of the runs go with their task -/
  | deleteTask (taskId : String)
  | purge (dead : ResultRow → Bool)

/-- the executors of a run that is dispatching or joining -/
def Phase.executors : Phase → Option (Plan × List (String × Executor))
  | .dispatching plan _ executors | .draining plan executors => some (plan, executors)
  | _ => none

def Phase.withExecutors (executors : List (String × Executor)) : Phase → Phase
  | .dispatching plan rest _ => .dispatching plan rest executors
  | .draining plan _ => .draining plan executors
  | phase => phase

def advance (r : ℕ) (fails denied : Bool) (now : ℤ) (recipients : String → Bool → List ℕ) (run : Run) (s : State) : State :=
  match run.phase with
  | .claimed manual actor =>
    match s.tasks run.taskId with
    | none => s.release r run
    | some task =>
      match task.serverIds with
      | none => s.release r run
      | some serverIds =>
        if fails then s.release r run
        else
          let ownerId := if manual then actor.getD "" else task.createdBy
          let retryCount := if manual then 0 else max task.retryCount 0
          s.goto r run (.found ⟨ownerId, (serverIds.insertionSort (· ≤ ·)).dedup, retryCount.toNat + 1⟩)
  | .found plan =>
    if fails || (s.tasks run.taskId).isNone then s.release r run
    else (s.setRow r ⟨run.taskId, plan.ownerId, plan.targets, .running, none, none⟩).goto r run (.stored plan)
  | .stored plan => if fails then s.release r run else s.goto r run (.updated plan)
  | .updated plan => if fails then s.release r run else s.goto r run (.dispatching plan plan.targets [])
  | .dispatching plan (serverId :: rest) executors =>
    if denied then
      if fails then s.release r run
      else (s.writeResult ⟨run.taskId, r, serverId, 1, -2⟩).goto r run (.dispatching plan rest executors)
    else s.goto r run (.dispatching plan rest (executors ++ [(serverId, .attempting 1)]))
  | .dispatching plan [] executors => s.goto r run (.draining plan executors)
  | .draining _ executors =>
    if executors.all fun e => e.2.hasEnded then
      s.goto r run (.recording ((executors.all fun e => e.2 == .ended true) && !run.cancelled) executors)
    else s
  | .recording complete _ => if fails then s else (recordCompletion r complete now s).goto r run .finishing
  | .finishing => (if fails then s else finishRun r now recipients s).release r run

/-- one turn of the loop of `execute_for_server` -/
def attempt (r i : ℕ) (reply : Reply) (fails : Bool) (run : Run) (s : State) : State :=
  match run.phase.executors with
  | none => s
  | some (plan, executors) =>
    match executors[i]? with
    | some (serverId, .attempting n) =>
      let become := fun executor => s.goto r run (run.phase.withExecutors (executors.set i (serverId, executor)))
      if run.cancelled then become (.ended true)
      else if fails then become (.ended false)
      else
        (become (if reply.succeeded || n == plan.maxAttempts then .ended true else .attempting (n + 1))).writeResult
          ⟨run.taskId, r, serverId, n, reply.storedCode⟩
    | _ => s

def step (s : State) : Op → State
  | .trigger taskId manual actor =>
    match s.active taskId with
    | some _ => s
    | none =>
      { s with
        active := Function.update s.active taskId (some s.fresh)
        runs := Function.update s.runs s.fresh (some ⟨taskId, .claimed manual actor, false⟩)
        fresh := s.fresh + 1 }
  | .advance r fails denied now recipients =>
    match s.runs r with
    | none => s
    | some run => advance r fails denied now recipients run s
  | .execute r i reply fails =>
    match s.runs r with
    | none => s
    | some run => attempt r i reply fails run s
  | .panic r i =>
    match s.runs r with
    | none => s
    | some run =>
      match run.phase.executors with
      | none => s
      | some (_, executors) =>
        match executors[i]? with
        | some (serverId, .attempting _) =>
          s.goto r run (run.phase.withExecutors (executors.set i (serverId, .ended false)))
        | _ => s
  | .cancel taskId =>
    match s.active taskId with
    | none => s
    | some r =>
      match s.runs r with
      | none => s
      | some run => { s with runs := Function.update s.runs r (some { run with cancelled := true }) }
  | .recover r now recipients => finishRun r now recipients s
  | .edit taskId task => { s with tasks := Function.update s.tasks taskId (some task) }
  | .deleteTask taskId =>
    { s with
      tasks := Function.update s.tasks taskId none
      rows := fun r => (s.rows r).filter fun row => row.taskId != taskId
      results := s.results.filter fun row => row.taskId != taskId }
  | .purge dead => { s with results := s.results.filter fun row => !dead row }

end ServerBee.TaskRuns
