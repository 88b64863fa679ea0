/-
The mobile push outbox and its delivery workers (`service/mobile_push_outbox.rs`).

Rows follow `entity/{mobile_push_outbox,mobile_push_registration,mobile_session,user,task,task_run}.rs`, with the columns
that delivery reads or writes. Identifiers are ℕ, instants ℤ; `summary_json` is stored decoded. What third-party crates
decide (uuid, base64, url, serde_json) is a parameter `Crates`.

One `deliver_next` is six steps of a worker: read the clock and poll, claim in a transaction, send, read the clock again,
record in a transaction. Each transaction is one step, because SQLite has one writer; the network call lies between two
steps, and a worker may be lost at any point (`crash`, which also stands for a failed statement). Everything else in the
database may change at any time (`world`), and jobs may be enqueued. Clock readings of different workers are unrelated;
one call does not see the clock run backwards.
-/
import Mathlib.Tactic

namespace ServerBee.Push

def sendTimeout : ℤ := 15
def leaseSeconds : ℤ := 30

/-! ## Third-party code -/

structure Url where
  scheme : String
  host : Option String
  port : Option ℕ

structure Crates where
  /-- `Uuid::parse_str` accepts the text and prints it back unchanged -/
  uuidCanonical : String → Bool
  /-- the length of the decoded bytes -/
  base64Decode : String → Option ℕ
  parseUrl : String → Option Url
  /-- `serde_json::from_str::<Value>` succeeds -/
  jsonValid : String → Bool

/-! ## Rows -/

inductive Outcome where
  | pending
  | retryable
  | accepted
  | permanent
  | expired
deriving DecidableEq, Repr

/-- `outcome IN ('pending','retryable')` -/
def Outcome.isOpen : Outcome → Bool
  | .pending | .retryable => true
  | .accepted | .permanent | .expired => false

/-- the outcomes a relay may name -/
inductive Verdict where
  | accepted
  | retryable
  | permanent
  | expired
deriving DecidableEq, Repr

def Verdict.outcome : Verdict → Outcome
  | .accepted => .accepted
  | .retryable => .retryable
  | .permanent => .permanent
  | .expired => .expired

@[simp] theorem Verdict.outcome_isOpen (v : Verdict) : v.outcome.isOpen = true ↔ v = .retryable := by
  cases v <;> decide

def Verdict.parse (text : String) : Option Verdict :=
  if text = "accepted" then some .accepted
  else if text = "retryable" then some .retryable
  else if text = "permanent" then some .permanent
  else if text = "expired" then some .expired
  else none

structure Job where
  eventId : ℕ
  installationId : ℕ
  userId : ℕ
  mobileSessionId : ℕ
  registrationRevision : ℤ
  recipientRole : String
  taskRunId : Option ℕ
  category : String
  expiresAt : ℤ
  envelope : Option String
  outcome : Outcome
  reason : String
  attempts : ℕ
  nextAttemptAt : ℤ
  leaseId : Option ℕ
  leaseUntil : ℤ
deriving DecidableEq, Repr

abbrev Key := ℕ × ℕ

/-- the primary key -/
def Job.key (job : Job) : Key := (job.eventId, job.installationId)

structure Registration where
  installationId : ℕ
  userId : ℕ
  mobileSessionId : ℕ
  revision : ℤ
  enabled : Bool
  alerts : Bool
  security : Bool
  taskFailure : Bool
  taskSuccess : Bool
  deviceToken : Option String
  environment : Option String
  contentKeyId : Option String
  contentKey : Option String
  deploymentId : Option String
deriving DecidableEq, Repr

structure MobileSession where
  id : ℕ
  userId : ℕ
  installationId : ℕ
  createdAt : ℤ
  expiresAt : ℤ
deriving DecidableEq, Repr

structure User where
  id : ℕ
  role : String
  mustChangePassword : Bool
  passwordChangedAt : Option ℤ
deriving DecidableEq, Repr

structure TaskRunSummary where
  taskId : ℕ
  runId : ℕ
  total : ℕ
  failed : ℕ
  timedOut : ℕ
  offline : ℕ
  denied : ℕ
deriving DecidableEq, Repr

structure TaskRun where
  runId : ℕ
  taskId : ℕ
  ownerId : ℕ
  status : String
  summaryJson : Option TaskRunSummary
deriving DecidableEq, Repr

structure Task where
  id : ℕ
  taskType : String
deriving DecidableEq, Repr

/-- the tables that delivery reads besides its own -/
structure World where
  registrations : List Registration
  sessions : List MobileSession
  users : List User
  tasks : List Task
  taskRuns : List TaskRun
deriving DecidableEq, Repr

structure Db where
  outbox : List Job
  world : World
deriving DecidableEq, Repr

/-! ## Eligibility -/

def TaskRunSummary.isSuccess (s : TaskRunSummary) : Bool :=
  decide (0 < s.total) && s.failed == 0 && s.timedOut == 0 && s.offline == 0 && s.denied == 0

def isLowerHex (c : Char) : Bool := c.isDigit || ('a' ≤ c && c ≤ 'f')

def maxDeviceTokenChars : ℕ := 1024

def validDeployment (C : Crates) (deploymentId : String) : Bool :=
  decide (deploymentId.utf8ByteSize ≤ 512) &&
    (C.parseUrl deploymentId).any fun url =>
      url.host.isSome && (url.scheme == "https" ||
        (url.scheme == "http" && url.host == some "127.0.0.1" && url.port.isSome))

def validRegistration (C : Crates) (token environment contentKeyId contentKey deploymentId : String) : Bool :=
  decide (2 ≤ token.toList.length) && decide (token.toList.length ≤ maxDeviceTokenChars) &&
    token.toList.length % 2 == 0 && token.toList.all isLowerHex &&
    (environment == "sandbox" || environment == "production") && C.uuidCanonical contentKeyId &&
    C.base64Decode contentKey == some 32 && validDeployment C deploymentId

def Registration.isRegistered (C : Crates) (r : Registration) : Bool :=
  r.enabled &&
    match r.deviceToken, r.environment, r.contentKeyId, r.contentKey, r.deploymentId with
    | some token, some environment, some keyId, some key, some deployment =>
      validRegistration C token environment keyId key deployment
    | _, _, _, _, _ => false

/-- `task_success` of a job: `none` for one that a scheduled run does not stand behind (then the job is ineligible) -/
def taskSuccess (w : World) (job : Job) : Option (Option Bool) :=
  match job.taskRunId with
  | none => some none
  | some runId =>
    if job.eventId ≠ runId then none
    else
      match w.taskRuns.find? fun r => r.runId == runId && r.ownerId == job.userId && r.status == "completed" with
      | none => none
      | some run =>
        match run.summaryJson.filter fun s => s.taskId == run.taskId && s.runId == run.runId && decide (0 < s.total) with
        | none => none
        | some summary =>
          if job.recipientRole ≠ "admin" ∨
              (w.tasks.find? fun t => t.id == run.taskId && t.taskType == "scheduled").isNone then none
          else some (some summary.isSuccess)

def subscribed (r : Registration) (job : Job) (taskSuccess : Option Bool) : Bool :=
  match taskSuccess with
  | none =>
    job.category == "test" || (job.category == "alert" && r.alerts) ||
      (job.category == "security" && r.security && job.recipientRole == "admin")
  | some false => (job.category == "test" || job.category == "task_failure") && r.taskFailure
  | some true => (job.category == "test" || job.category == "task_success") && r.taskSuccess

/-- the registration a job may be sent to, the session's expiry compared with `now` -/
def eligible (C : Crates) (w : World) (now : ℤ) (job : Job) : Option Registration :=
  match taskSuccess w job with
  | none => none
  | some taskSuccess =>
    let row := (w.registrations.find? fun r => r.installationId == job.installationId).filter fun r =>
      r.userId == job.userId && r.mobileSessionId == job.mobileSessionId && r.revision == job.registrationRevision &&
        r.isRegistered C && subscribed r job taskSuccess
    let mobile := w.sessions.find? fun s => s.id == job.mobileSessionId && s.userId == job.userId &&
      s.installationId == job.installationId && decide (now < s.expiresAt)
    let owner := w.users.find? fun u => u.id == job.userId
    match row, mobile, owner with
    | some row, some mobile, some owner =>
      if owner.mustChangePassword = false ∧ owner.role = job.recipientRole ∧
          (owner.role = "admin" ∨ owner.role = "member") ∧
          ∀ changed ∈ owner.passwordChangedAt, changed ≤ mobile.createdAt then some row
      else none
    | _, _, _ => none

/-! ## The relay's answer -/

structure RelayDelivery where
  outcome : Verdict
  reason : String
  deviceInvalid : Bool
deriving DecidableEq, Repr

/-- a relay body as it came -/
structure RelayBody where
  outcome : String
  reason : String
  deviceInvalid : Bool

inductive Reply where
  | failed
  | http (status : ℕ) (body : Option RelayBody)

def retry : RelayDelivery := ⟨.retryable, "RelayUnavailable", false⟩

/-- the reasons that are stored as the relay names them -/
def knownReasons : List String :=
  ["Unregistered", "Accepted", "Expired", "BadTopic", "BadDeviceToken", "DeviceTokenNotForTopic", "TooManyRequests",
    "ServiceUnavailable", "InternalServerError", "Shutdown", "ProviderUnavailable", "NetworkUnavailable",
    "RequestTimeout", "DeviceOrEnvironmentMismatch", "ProviderConfigurationOrPayload", "PayloadTooLarge"]

def boundedReason (outcome : Verdict) (reason : String) : String :=
  if reason ∈ knownReasons then reason
  else
    match outcome with
    | .accepted => "Accepted"
    | .retryable => "ProviderUnavailable"
    | .expired => "Expired"
    | .permanent => "ProviderRejected"

/-- the delivery that `send` makes of the relay's reply -/
def send (C : Crates) (configured : Bool) (job : Job) (reply : Reply) : RelayDelivery :=
  if configured = false then retry
  else if job.envelope.any C.jsonValid = false then ⟨.permanent, "InvalidEnvelope", false⟩
  else
    match reply with
    | .failed => retry
    | .http status body =>
      if 200 ≤ status ∧ status < 300 then
        match body with
        | some verdict =>
          match Verdict.parse verdict.outcome with
          | some outcome => ⟨outcome, boundedReason outcome verdict.reason, verdict.deviceInvalid⟩
          | none => retry
        | none => retry
      else if status = 408 then ⟨.retryable, "RequestTimeout", false⟩
      else if status = 503 then
        match body with
        | some verdict =>
          if verdict.outcome = "permanent" ∧ verdict.reason = "RelayNotConfigured" then
            ⟨.permanent, "RelayNotConfigured", false⟩
          else retry
        | none => retry
      else if 400 ≤ status ∧ status < 500 ∧ status ≠ 429 then ⟨.permanent, "RelayPayloadRejected", false⟩
      else retry

/-! ## The three statements that close a job -/

/-- UPDATE .. WHERE event_id = ? AND installation_id = ? (AND ..) -/
def updateWhere (outbox : List Job) (p : Job → Bool) (set : Job → Job) : List Job :=
  outbox.map fun j => if p j then set j else j

def Job.isDue (now : ℤ) (j : Job) : Bool :=
  j.outcome.isOpen && decide (j.nextAttemptAt ≤ now) && decide (j.leaseUntil ≤ now)

/-- the row as the expiry sweep leaves it -/
def Job.expire (j : Job) : Job :=
  { j with outcome := .expired, reason := "Expired", envelope := none, leaseId := none, leaseUntil := 0 }

def sweep (now : ℤ) (outbox : List Job) : List Job :=
  updateWhere outbox (fun j => j.outcome.isOpen && decide (j.expiresAt ≤ now) && decide (j.leaseUntil ≤ now)) Job.expire

/-- the idle check outside the transaction -/
def isReady (now : ℤ) (outbox : List Job) : Bool :=
  outbox.any fun j => j.outcome.isOpen && decide (j.leaseUntil ≤ now) &&
    (decide (j.nextAttemptAt ≤ now) || decide (j.expiresAt ≤ now))

/-- the row of a job found ineligible; the lease columns are left as they are -/
def Job.refuse (j : Job) : Job := { j with outcome := .permanent, reason := "Ineligible", envelope := none }

def closeIneligible (key : Key) (outbox : List Job) : List Job := updateWhere outbox (fun j => j.key == key) Job.refuse

/-- the row with a new lease -/
def Job.lease (lease : ℕ) (now : ℤ) (j : Job) : Job :=
  { j with leaseId := some lease, leaseUntil := now + leaseSeconds, attempts := j.attempts + 1 }

def grantLease (key : Key) (lease : ℕ) (now : ℤ) (outbox : List Job) : List Job :=
  updateWhere outbox (fun j => j.key == key) (Job.lease lease now)

def backoff (attempts : ℕ) : ℤ := min (2 ^ min (attempts + 1) 8) 300

/-- what a claim leads to -/
inductive Claim where
  | nothingDue
  | ineligible (job : Job)
  | granted (job : Job) (row : Registration)

/-- the row that `ORDER BY next_attempt_at LIMIT 1` returns may be any of the earliest -/
def selects (outbox : List Job) (now : ℤ) (job : Job) : Bool :=
  job.isDue now && outbox.all fun j => !j.isDue now || decide (job.nextAttemptAt ≤ j.nextAttemptAt)

/-- what the claiming transaction finds after its sweep; `pick` says which of the earliest rows comes first -/
def findClaim (C : Crates) (db : Db) (now eligibleNow : ℤ) (pick : Key) : Option Claim :=
  let outbox := sweep now db.outbox
  if outbox.any (·.isDue now) = false then some .nothingDue
  else
    match outbox.find? fun j => j.key == pick with
    | none => none
    | some job =>
      if selects outbox now job = false then none
      else
        match eligible C db.world eligibleNow job with
        | none => some (.ineligible job)
        | some row => some (.granted job row)

/-- a lease: who holds it, since when, for which job as selected, and the registration it was eligible with -/
structure Grant where
  worker : ℕ
  lease : ℕ
  now : ℤ
  job : Job
  row : Registration
deriving DecidableEq, Repr

/-- `a = ?` in SQL -/
def sqlEq {α : Type} [DecidableEq α] (a b : Option α) : Bool := a.isSome && a == b

/-- the sending identity compared before a device token is cleared -/
def sameIdentity (r row : Registration) : Bool :=
  r.installationId == row.installationId && r.userId == row.userId && r.mobileSessionId == row.mobileSessionId &&
    r.revision == row.revision && sqlEq r.deviceToken row.deviceToken && sqlEq r.environment row.environment &&
    sqlEq r.contentKeyId row.contentKeyId && sqlEq r.contentKey row.contentKey &&
    sqlEq r.deploymentId row.deploymentId

def clearDevice (row : Registration) (registrations : List Registration) : List Registration :=
  registrations.map fun r =>
    if sameIdentity r row then { r with deviceToken := none, revision := r.revision + 1 } else r

/-- the job's row stores the lease -/
def Grant.holds (g : Grant) (j : Job) : Bool := j.key == g.job.key && j.leaseId == some g.lease

/-- a retryable answer that comes after the job's deadline expires it -/
def finalVerdict (g : Grant) (d : RelayDelivery) (finished : ℤ) : Verdict × String :=
  if d.outcome = .retryable ∧ g.job.expiresAt ≤ finished then (.expired, "Expired") else (d.outcome, d.reason)

def recordRow (g : Grant) (d : RelayDelivery) (finished : ℤ) (j : Job) : Job :=
  { j with
    outcome := (finalVerdict g d finished).1.outcome
    reason := (finalVerdict g d finished).2
    nextAttemptAt := min (finished + backoff g.job.attempts) g.job.expiresAt
    leaseId := none
    leaseUntil := 0
    envelope := if (finalVerdict g d finished).1 = .retryable then j.envelope else none }

/-- the recording transaction; `none`: the lease is no longer stored, and nothing is recorded -/
def record (db : Db) (g : Grant) (d : RelayDelivery) (finished : ℤ) : Option Db :=
  if db.outbox.any g.holds = false then none
  else
    let clears := d.deviceInvalid && d.reason == "Unregistered" && (finalVerdict g d finished).1 == .permanent
    some {
      outbox := updateWhere db.outbox g.holds (recordRow g d finished)
      world := if clears then { db.world with registrations := clearDevice g.row db.world.registrations }
        else db.world }

/-! ## The machine -/

inductive Worker where
  | idle
  | polled (now : ℤ)
  | sending (g : Grant)
  | received (g : Grant) (d : RelayDelivery) (finished : ℤ)
deriving DecidableEq

/-- the grant of a worker whose request is in flight or whose response is not yet recorded -/
def Worker.grant : Worker → Option Grant
  | .sending g => some g
  | .received g _ _ => some g
  | _ => none

/-- `granted`, `recorded` and `enqueued` are histories: every lease granted, the leases whose response was recorded, and
the jobs as they were enqueued -/
structure St where
  db : Db
  workers : ℕ → Worker
  nextLease : ℕ
  granted : List Grant
  recorded : List ℕ
  enqueued : List Job

def St.init (w : World) : St := ⟨⟨[], w⟩, fun _ => .idle, 0, [], [], []⟩

inductive Op where
  | enqueue (job : Job)
  | world (w : World)
  | poll (w : ℕ) (now : ℤ)
  | claim (w : ℕ) (eligibleNow : ℤ) (pick : Key)
  | respond (w : ℕ) (configured : Bool) (reply : Reply) (finished : ℤ)
  | record (w : ℕ)
  | crash (w : ℕ)

/-- a job as the enqueuers insert it -/
def Job.isNew (j : Job) : Bool := j.outcome == .pending && j.attempts == 0 && j.leaseId == none && j.leaseUntil == 0

def St.setWorker (s : St) (w : ℕ) (worker : Worker) : St := { s with workers := Function.update s.workers w worker }

def step (C : Crates) (s : St) : Op → St
  | .enqueue job =>
    if job.isNew = true ∧ s.db.outbox.all (fun j => j.key != job.key) = true then
      { s with db := { s.db with outbox := s.db.outbox ++ [job] }, enqueued := s.enqueued ++ [job] }
    else s
  | .world w => { s with db := { s.db with world := w } }
  | .poll w now =>
    match s.workers w with
    | .idle => if isReady now s.db.outbox then s.setWorker w (.polled now) else s
    | _ => s
  | .claim w eligibleNow pick =>
    match s.workers w with
    | .polled now =>
      match findClaim C s.db now eligibleNow pick with
      | none => s
      | some .nothingDue =>
        St.setWorker { s with db := { s.db with outbox := sweep now s.db.outbox } } w .idle
      | some (.ineligible job) =>
        St.setWorker { s with db := { s.db with outbox := closeIneligible job.key (sweep now s.db.outbox) } } w .idle
      | some (.granted job row) =>
        let g : Grant := ⟨w, s.nextLease, now, job, row⟩
        St.setWorker { s with
          db := { s.db with outbox := grantLease job.key s.nextLease now (sweep now s.db.outbox) }
          nextLease := s.nextLease + 1
          granted := s.granted ++ [g] } w (.sending g)
    | _ => s
  | .respond w configured reply finished =>
    match s.workers w with
    | .sending g =>
      if g.now ≤ finished then s.setWorker w (.received g (send C configured g.job reply) finished) else s
    | _ => s
  | .record w =>
    match s.workers w with
    | .received g d finished =>
      match record s.db g d finished with
      | none => s.setWorker w .idle
      | some db => St.setWorker { s with db := db, recorded := s.recorded ++ [g.lease] } w .idle
    | _ => s
  | .crash w => s.setWorker w .idle

def run (C : Crates) (s : St) (ops : List Op) : St := ops.foldl (step C) s

end ServerBee.Push
