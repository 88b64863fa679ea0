/-
The upgrade jobs of the server (`service/upgrade_tracker.rs`).

A server has at most one job. An operation on one entry of the map is one step; `start_job` looks the entry up and inserts
in two, and `sweep_timeouts` and `cleanup_old` visit the entries one after the other. Job ids are drawn fresh. Instants are
nanoseconds. What browsers are told is left out.
-/
import Mathlib.Logic.Function.Basic
import Mathlib.Tactic

namespace ServerBee.UpgradeJobs

/-! ## Jobs -/

inductive UpgradeStage where
  | downloading
  | verifying
  | preFlight
  | installing
  | restarting
deriving DecidableEq, Repr

inductive UpgradeStatus where
  | running
  | succeeded
  | failed
  | timeout
deriving DecidableEq, Repr

structure UpgradeJob where
  serverId : ℕ
  jobId : ℕ
  targetVersion : String
  stage : UpgradeStage
  status : UpgradeStatus
  error : Option String
  backupPath : Option String
  startedAt : ℤ
  finishedAt : Option ℤ
deriving DecidableEq, Repr

def UpgradeJob.isTerminal (job : UpgradeJob) : Bool := job.status != .running

structure UpgradeLookup where
  serverId : ℕ
  jobId : Option ℕ
  targetVersion : String
deriving DecidableEq, Repr

def UpgradeLookup.fromJob (job : UpgradeJob) : UpgradeLookup := ⟨job.serverId, some job.jobId, job.targetVersion⟩

/-- by id where the lookup has one, else by version -/
def UpgradeLookup.matches (lookup : UpgradeLookup) (job : UpgradeJob) : Bool :=
  if job.serverId ≠ lookup.serverId then false
  else
    match lookup.jobId with
    | some jobId => job.jobId == jobId
    | none => job.targetVersion == lookup.targetVersion

inductive CapabilityDeniedReason where
  | serverCapabilityDisabled
  | agentCapabilityDisabled
deriving DecidableEq, Repr

def CapabilityDeniedReason.debug : CapabilityDeniedReason → String
  | .serverCapabilityDisabled => "ServerCapabilityDisabled"
  | .agentCapabilityDisabled => "AgentCapabilityDisabled"

/-! ## The tracker -/

def second : ℤ := 1000000000

def upgradeTimeoutSecs : ℤ := 120
def upgradeRetentionHours : ℤ := 24

/-- the map, by server -/
abbrev Jobs := ℕ → Option UpgradeJob

section Tracker

variable (jobs : Jobs)

/-- `start_job`, its check: the job that is in the way -/
def conflict (serverId : ℕ) : Option UpgradeJob := (jobs serverId).filter fun existing => existing.status == .running

def newJob (serverId jobId : ℕ) (targetVersion : String) (now : ℤ) : UpgradeJob :=
  ⟨serverId, jobId, targetVersion, .downloading, .running, none, none, now, none⟩

/-- `start_job`, its insert -/
def insertJob (serverId jobId : ℕ) (targetVersion : String) (now : ℤ) : Jobs :=
  Function.update jobs serverId (some (newJob serverId jobId targetVersion now))

def updateStage (lookup : UpgradeLookup) (stage : UpgradeStage) : Jobs × Option UpgradeJob :=
  match jobs lookup.serverId with
  | none => (jobs, none)
  | some job =>
    if job.status ≠ .running ∨ lookup.matches job = false then (jobs, none)
    else if job.stage = stage then (jobs, some job)
    else (Function.update jobs lookup.serverId (some { job with stage := stage }), some { job with stage := stage })

/-- what a job becomes when it ends -/
def UpgradeJob.finish (job : UpgradeJob) (status : UpgradeStatus) (stage : Option UpgradeStage)
    (error backupPath : Option String) (now : ℤ) : UpgradeJob :=
  { job with stage := stage.getD job.stage, status, error, backupPath, finishedAt := some now }

def finishJobInner (lookup : UpgradeLookup) (status : UpgradeStatus) (stage : Option UpgradeStage)
    (error backupPath : Option String) (mayOverrideSuccess : Bool) (now : ℤ) : Jobs × Option UpgradeJob :=
  match jobs lookup.serverId with
  | none => (jobs, none)
  | some job =>
    if (job.status = .running ∨ mayOverrideSuccess = true ∧ job.status = .succeeded) ∧ lookup.matches job = true then
      (Function.update jobs lookup.serverId (some (job.finish status stage error backupPath now)),
        some (job.finish status stage error backupPath now))
    else (jobs, none)

def finishJob (lookup : UpgradeLookup) (status : UpgradeStatus) (stage : Option UpgradeStage)
    (error backupPath : Option String) (now : ℤ) : Jobs × Option UpgradeJob :=
  finishJobInner jobs lookup status stage error backupPath false now

def markFailed (lookup : UpgradeLookup) (stage : UpgradeStage) (error : String) (backupPath : Option String) (now : ℤ) :
    Jobs × Option UpgradeJob :=
  finishJob jobs lookup .failed (some stage) (some error) backupPath now

def markAgentReportedFailed (lookup : UpgradeLookup) (stage : UpgradeStage) (error : String) (backupPath : Option String)
    (now : ℤ) : Jobs × Option UpgradeJob :=
  finishJobInner jobs lookup .failed (some stage) (some error) backupPath true now

def markFailedByCapabilityDenied (lookup : UpgradeLookup) (reason : CapabilityDeniedReason) (now : ℤ) :
    Jobs × Option UpgradeJob :=
  finishJob jobs lookup .failed none (some ("Upgrade capability denied: " ++ reason.debug)) none now

def markSucceeded (lookup : UpgradeLookup) (backupPath : Option String) (now : ℤ) : Jobs × Option UpgradeJob :=
  finishJob jobs lookup .succeeded none none backupPath now

/-- `sweep_timeouts`, one entry -/
def sweepEntry (now : ℤ) (serverId : ℕ) : Jobs × Option UpgradeJob :=
  match jobs serverId with
  | none => (jobs, none)
  | some job =>
    if job.status ≠ .running ∨ job.startedAt > now - upgradeTimeoutSecs * second then (jobs, none)
    else
      let job := { job with
        status := .timeout
        error := some ("Upgrade timed out after " ++ toString upgradeTimeoutSecs ++ "s")
        finishedAt := some now }
      (Function.update jobs serverId (some job), some job)

/-- `cleanup_old`, one entry -/
def cleanupEntry (now : ℤ) (serverId : ℕ) : Jobs :=
  match jobs serverId with
  | none => jobs
  | some job =>
    if job.isTerminal ∧ job.finishedAt.any (fun finishedAt => finishedAt ≤ now - upgradeRetentionHours * 3600 * second) then
      Function.update jobs serverId none
    else jobs

end Tracker

/-! ## The machine -/

inductive Task where
  | idle
  /-- `start_job` after its check -/
  | starting (serverId : ℕ) (targetVersion : String)
deriving DecidableEq, Repr

inductive Op where
  /-- `start_job` of a task, up to its check -/
  | check (t serverId : ℕ) (targetVersion : String)
  /-- the insert of a task that passed the check -/
  | insert (t jobId : ℕ) (now : ℤ)
  | updateStage (lookup : UpgradeLookup) (stage : UpgradeStage)
  | markFailed (lookup : UpgradeLookup) (stage : UpgradeStage) (error : String) (backupPath : Option String) (now : ℤ)
  | markAgentReportedFailed (lookup : UpgradeLookup) (stage : UpgradeStage) (error : String) (backupPath : Option String)
    (now : ℤ)
  | markFailedByCapabilityDenied (lookup : UpgradeLookup) (reason : CapabilityDeniedReason) (now : ℤ)
  | markSucceeded (lookup : UpgradeLookup) (backupPath : Option String) (now : ℤ)
  | sweep (now : ℤ) (serverId : ℕ)
  | cleanup (now : ℤ) (serverId : ℕ)
deriving DecidableEq, Repr

structure St where
  jobs : Jobs
  tasks : ℕ → Task
  /-- the ids of all jobs there were -/
  issued : List ℕ
  /-- the jobs that left Running, and for which status -/
  left : List (ℕ × UpgradeStatus)

def St.new : St := ⟨fun _ => none, fun _ => .idle, [], []⟩

/-- the map after an operation that is not part of `start_job` -/
def Op.apply (jobs : Jobs) : Op → Jobs
  | .check _ _ _ => jobs
  | .insert _ _ _ => jobs
  | .updateStage lookup stage => (UpgradeJobs.updateStage jobs lookup stage).1
  | .markFailed lookup stage error backupPath now => (UpgradeJobs.markFailed jobs lookup stage error backupPath now).1
  | .markAgentReportedFailed lookup stage error backupPath now =>
    (UpgradeJobs.markAgentReportedFailed jobs lookup stage error backupPath now).1
  | .markFailedByCapabilityDenied lookup reason now => (UpgradeJobs.markFailedByCapabilityDenied jobs lookup reason now).1
  | .markSucceeded lookup backupPath now => (UpgradeJobs.markSucceeded jobs lookup backupPath now).1
  | .sweep now serverId => (sweepEntry jobs now serverId).1
  | .cleanup now serverId => cleanupEntry jobs now serverId

/-- a job that was Running and is not any more -/
def departure (before after : Option UpgradeJob) : List (ℕ × UpgradeStatus) :=
  match before, after with
  | some job, some job' =>
    if job.status = .running ∧ job'.jobId = job.jobId ∧ job'.status ≠ .running then [(job.jobId, job'.status)] else []
  | _, _ => []

def Op.lookup : Op → Option UpgradeLookup
  | .updateStage lookup _ => some lookup
  | .markFailed lookup _ _ _ _ => some lookup
  | .markAgentReportedFailed lookup _ _ _ _ => some lookup
  | .markFailedByCapabilityDenied lookup _ _ => some lookup
  | .markSucceeded lookup _ _ => some lookup
  | _ => none

/-- the entry that an operation is about -/
def Op.serverId : Op → ℕ
  | .check _ serverId _ => serverId
  | .insert _ _ _ => 0
  | .sweep _ serverId => serverId
  | .cleanup _ serverId => serverId
  | op => (op.lookup.map UpgradeLookup.serverId).getD 0

def step (s : St) : Op → St
  | .check t serverId targetVersion =>
    if s.tasks t = .idle ∧ conflict s.jobs serverId = none then
      { s with tasks := Function.update s.tasks t (.starting serverId targetVersion) }
    else s
  | .insert t jobId now =>
    match s.tasks t with
    | .idle => s
    | .starting serverId targetVersion =>
      if jobId ∈ s.issued then s
      else
        { s with
          jobs := insertJob s.jobs serverId jobId targetVersion now
          tasks := Function.update s.tasks t .idle
          issued := jobId :: s.issued }
  | op =>
    { s with
      jobs := op.apply s.jobs
      left := s.left ++ departure (s.jobs op.serverId) (op.apply s.jobs op.serverId) }

end ServerBee.UpgradeJobs
