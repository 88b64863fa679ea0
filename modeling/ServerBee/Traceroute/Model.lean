/-
One traceroute request on the agent (`traceroute.rs`: `resolve_target`, `is_privilege_error`, `try_trace`,
`spawn_traceroute`).

The request is a task, and for an address that may be traced a blocking thread beside it. A `TrippyRun` is what one call of
`try_trace` does: the hops that its callback sees round by round, and how it returns. The thread makes its callbacks one after
another, falls back to an unprivileged run after a privilege error, and returns; nothing stops it. The task waits for it, or
gives up at the wall-clock timeout, at any time before the thread has returned. `queue` holds the updates of the request in
the order in which they get into the channel, each with the run whose callback sent it, or `none` for the task itself. What is
measured of a hop is of any type. The patterns of `is_privilege_error` are ASCII, and so is the lowering of letters here.
-/
import ServerBee.Lib.Run
import ServerBee.Probes.Address

namespace ServerBee.Traceroute

open ServerBee.Lib
open ServerBee.Firewall (IpAddr)
open ServerBee.Probes (parseAddr isMonitorSafeAddr)

def defaultMaxRounds : ℕ := 5
def traceWallTimeoutSecs : ℕ := 60

/-! ## Targets -/

/-- a literal address, or the first one that `lookup_host` gives -/
def resolveTarget (lookupHost : List Char → Except String (List IpAddr)) (target : List Char) : Except String IpAddr :=
  match parseAddr target with
  | some ip => .ok ip
  | none =>
    match lookupHost target with
    | .error e => .error s!"DNS resolution failed: {e}"
    | .ok [] => .error s!"DNS resolution returned no addresses for {String.ofList target}"
    | .ok (addr :: _) => .ok addr

/-! ## Runs of the tracer -/

inductive ErrorKind where
  | privilegeError
  | ioError
  | probeFailed
  | other
deriving DecidableEq, Repr

/-- `trippy_core::Error`, with its text -/
structure TracerError where
  kind : ErrorKind
  text : String
deriving DecidableEq, Repr

def contains (s pattern : String) : Bool := decide (pattern.toList <:+: s.toList)

def isPrivilegeError (e : TracerError) : Bool :=
  match e.kind with
  | .privilegeError => true
  | .ioError | .probeFailed => contains e.text.toLower "permission denied" || contains e.text.toLower "operation not permitted"
  | .other => false

inductive Outcome where
  | ok
  | error (e : TracerError)
  | panicked (text : String)
deriving DecidableEq, Repr

variable {η : Type}

/-- what one call of `try_trace` does -/
structure TrippyRun (η : Type) where
  rounds : List (List η)
  outcome : Outcome
  bounded : rounds.length ≤ defaultMaxRounds
  full : outcome = .ok → rounds.length = defaultMaxRounds

inductive PrivilegeMode where
  | privileged
  | unprivileged
deriving DecidableEq, Repr

inductive TargetOs where
  | linux
  | macos
  | windows
  | other
deriving DecidableEq, Repr

def platformGuidance : TargetOs → String
  | .linux => "Traceroute requires elevated privileges. Run the agent as root, or grant CAP_NET_RAW: " ++
      "sudo setcap cap_net_raw+ep $(which serverbee-agent)"
  | .macos => "Traceroute requires elevated privileges. Run the agent as root (sudo)."
  | .windows => "Traceroute requires Administrator privileges. Restart the agent as Administrator."
  | .other => "Traceroute requires elevated privileges. Run the agent as a privileged user."

/-! ## Updates -/

/-- `TracerouteRoundUpdate` -/
structure Update (η : Type) where
  requestId : String
  target : List Char
  round : ℕ
  totalRounds : ℕ
  hops : List η
  completed : Bool
  error : Option String
deriving DecidableEq, Repr

/-- why the task itself ends the request -/
inductive Reason where
  | dns (e : String)
  | disallowed
  | timeout
  | failed (msg : String)
  | panicked (text : String)
deriving DecidableEq, Repr

def Reason.error : Reason → String
  | .dns e => s!"DNS error: {e}"
  | .disallowed => "Target resolves to a disallowed address"
  | .timeout => s!"Traceroute exceeded {traceWallTimeoutSecs}s wall-clock timeout"
  | .failed msg => msg
  | .panicked text => s!"Tracer task panicked: {text}"

/-- all that a request is given, by its caller and by its surroundings -/
structure Request (η : Type) where
  requestId : String
  target : List Char
  os : TargetOs
  lookupHost : List Char → Except String (List IpAddr)
  privileged : TrippyRun η
  fallback : TrippyRun η

/-! ## The task and its thread -/

/-- what the closure of the thread returns -/
inductive Returned where
  | ok
  | error (msg : String)
  | panicked (text : String)
deriving DecidableEq, Repr

inductive Thread (η : Type) where
  /-- `roundNo` callbacks were made, and these hops are to come -/
  | running (mode : PrivilegeMode) (roundNo : ℕ) (rounds : List (List η))
  | returned (result : Returned)

inductive Phase where
  | waiting
  | reporting (reason : Reason)
  | finished
deriving DecidableEq, Repr

structure State (η : Type) where
  task : Phase
  thread : Option (Thread η)
  queue : List (Option PrivilegeMode × Update η)

namespace Request

variable (r : Request η)

def run : PrivilegeMode → TrippyRun η
  | .privileged => r.privileged
  | .unprivileged => r.fallback

/-- the update that the callback sends for its round `n` -/
def roundUpdate (n : ℕ) (hops : List η) : Update η :=
  ⟨r.requestId, r.target, n, defaultMaxRounds, hops, decide (defaultMaxRounds ≤ n), none⟩

/-- the update with which the task ends the request -/
def terminalUpdate (reason : Reason) : Update η :=
  ⟨r.requestId, r.target, 0, 0, [], true, some reason.error⟩

/-- the task up to the point where it waits -/
def start : State η :=
  match resolveTarget r.lookupHost r.target with
  | .error e => ⟨.reporting (.dns e), none, []⟩
  | .ok addr =>
    if isMonitorSafeAddr addr then ⟨.waiting, some (.running .privileged 0 r.privileged.rounds), []⟩
    else ⟨.reporting .disallowed, none, []⟩

/-- a run returns, and with it the closure, unless the fallback is tried -/
def afterRun : PrivilegeMode → Outcome → Thread η
  | _, .ok => .returned .ok
  | _, .panicked text => .returned (.panicked text)
  | .privileged, .error e =>
    if isPrivilegeError e then .running .unprivileged 0 r.fallback.rounds else .returned (.error s!"Tracer error: {e.text}")
  | .unprivileged, .error e => .returned (.error s!"{platformGuidance r.os}: {e.text}")

inductive Op where
  /-- the thread makes its next callback, or its run returns -/
  | thread
  /-- the task sees that the thread has returned -/
  | join
  | timeout
  /-- the update of the task gets into the channel -/
  | send
deriving DecidableEq, Repr

def step (s : State η) : Op → State η
  | .thread =>
    match s.thread with
    | some (.running mode n (hops :: rounds)) =>
      { s with thread := some (.running mode (n + 1) rounds), queue := s.queue ++ [(some mode, r.roundUpdate (n + 1) hops)] }
    | some (.running mode _ []) => { s with thread := some (r.afterRun mode (r.run mode).outcome) }
    | _ => s
  | .join =>
    match s.task, s.thread with
    | .waiting, some (.returned .ok) => { s with task := .finished }
    | .waiting, some (.returned (.error msg)) => { s with task := .reporting (.failed msg) }
    | .waiting, some (.returned (.panicked text)) => { s with task := .reporting (.panicked text) }
    | _, _ => s
  | .timeout =>
    match s.task, s.thread with
    | .waiting, some (.running _ _ _) => { s with task := .reporting .timeout }
    | _, _ => s
  | .send =>
    match s.task with
    | .reporting reason => { s with task := .finished, queue := s.queue ++ [(none, r.terminalUpdate reason)] }
    | _ => s

/-- the state after these steps of the task and its thread, in this order -/
def after (ops : List Op) : State η := runs r.step r.start ops

end Request

/-- the task and its thread have nothing left to do -/
def State.Finished (s : State η) : Prop :=
  s.task = .finished ∧ ∀ mode n rounds, s.thread ≠ some (.running mode n rounds)

end ServerBee.Traceroute
