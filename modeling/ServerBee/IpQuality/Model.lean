/-
The runs of the unlock checker over one connection (`ip_quality/mod.rs`: `sync`, `run_now`, `notify_ip_changed`,
`run_scheduler`; `reporter/mod.rs`: the seed and the interception of `IpChanged`).

The reporter loop and the scheduler are two tasks, and the capability changes at any time. The loop takes an `IpChanged`
message, notifies the checker, and then sends the message. The scheduler waits for one of its three triggers, checks the
capability, reads the services, reads the address, and runs. A service definition is of any type; what the probes find is not
here. Two fields are not in the program: `announced` is the preferred address that the server was told last, and `owed` says
that a change was announced, while the capability was effective and services were there, and no run has started since.
-/
import ServerBee.Lib.Watch
import ServerBee.Lib.Run

namespace ServerBee.IpQuality

open ServerBee.Lib

/-- a run, with the address that the server had been told when it started -/
structure RunResult where
  egressIp : String
  announced : Option String
deriving DecidableEq, Repr

inductive Phase where
  /-- spawned, and not polled yet -/
  | unstarted
  | waiting
  | triggered
  /-- the capability was effective -/
  | allowed
  /-- there were services -/
  | loaded
  | running (result : RunResult)
deriving DecidableEq, Repr

variable {δ : Type}

structure State (δ : Type) where
  capable : Bool
  seeded : Bool
  announced : Option String
  /-- the address of a message that the loop has taken and not sent yet -/
  forwarding : Option (Option String)
  ipChanged : Watch (Option String)
  services : List δ
  intervalHours : ℕ
  initialRunTriggered : Bool
  /-- the signals in the channel of manual runs -/
  runNow : ℕ
  lastIp : Option String
  phase : Phase
  results : List RunResult
  owed : Bool

/-- the preferred address -/
def preferred (ipv4 ipv6 : Option String) : Option String := ipv4.or ipv6

def defaultIntervalHours : ℕ := 12

/-- `SystemInfo` is sent, and the scheduler was spawned with the checker -/
def connect (capable : Bool) (ipv4 ipv6 : Option String) : State δ where
  capable
  seeded := false
  announced := preferred ipv4 ipv6
  forwarding := none
  ipChanged := (Watch.new none).subscribe
  services := []
  intervalHours := defaultIntervalHours
  initialRunTriggered := false
  runNow := 0
  lastIp := none
  phase := .unstarted
  results := []
  owed := false

/-! ## The checker -/

def notifyIpChanged (s : State δ) (newIp : Option String) : State δ := { s with ipChanged := s.ipChanged.send newIp }

/-- `try_send` to a channel for 16 signals -/
def runNow (s : State δ) : State δ := if s.capable && decide (s.runNow < 16) then { s with runNow := s.runNow + 1 } else s

def sync (s : State δ) (services : List δ) (intervalHours : ℕ) : State δ :=
  if s.capable then
    let s := { s with services, intervalHours }
    if !services.isEmpty && !s.initialRunTriggered then runNow { s with initialRunTriggered := true } else s
  else s

/-! ## Steps -/

inductive Op (δ : Type) where
  /-- a grant, or a revocation or expiry -/
  | setCapable (capable : Bool)
  | seed
  /-- the loop takes `IpChanged` and notifies the checker -/
  | take (ipv4 ipv6 : Option String)
  /-- the loop sends the message -/
  | send
  | sync (services : List δ) (intervalHours : ℕ)
  | runNow
  /-- the scheduler is polled for the first time -/
  | start
  | timeout
  | recvRunNow
  | recvIpChanged
  | checkCapability
  | loadServices
  | begin
  | finish
deriving DecidableEq, Repr

/-- the loop takes the next message or event -/
def State.free (s : State δ) : Bool := s.seeded && s.forwarding.isNone

def step (s : State δ) : Op δ → State δ
  | .setCapable capable => { s with capable }
  | .seed =>
    if s.seeded then s
    else if s.capable && s.announced.isSome then { notifyIpChanged s s.announced with seeded := true }
    else { s with seeded := true }
  | .take ipv4 ipv6 =>
    if s.free then
      if s.capable then { notifyIpChanged s (preferred ipv4 ipv6) with forwarding := some (preferred ipv4 ipv6) }
      else { s with forwarding := some (preferred ipv4 ipv6) }
    else s
  | .send =>
    match s.forwarding with
    | some newIp => { s with
        announced := newIp
        forwarding := none
        owed := s.owed || (decide (newIp ≠ s.announced) && s.capable && !s.services.isEmpty) }
    | none => s
  | .sync services intervalHours => if s.free then sync s services intervalHours else s
  | .runNow => if s.free then runNow s else s
  | .start =>
    match s.phase with
    | .unstarted => { s with phase := .waiting, ipChanged := s.ipChanged.borrowAndUpdate }
    | _ => s
  | .timeout =>
    match s.phase with
    | .waiting => { s with phase := .triggered }
    | _ => s
  | .recvRunNow =>
    match s.phase with
    | .waiting => if s.runNow = 0 then s else { s with phase := .triggered, runNow := s.runNow - 1 }
    | _ => s
  | .recvIpChanged =>
    match s.phase with
    | .waiting =>
      if s.ipChanged.unseen then
        if s.ipChanged.value = s.lastIp then { s with ipChanged := s.ipChanged.borrowAndUpdate }
        else { s with phase := .triggered, ipChanged := s.ipChanged.borrowAndUpdate, lastIp := s.ipChanged.value }
      else s
    | _ => s
  | .checkCapability =>
    match s.phase with
    | .triggered => { s with phase := if s.capable then .allowed else .waiting }
    | _ => s
  | .loadServices =>
    match s.phase with
    | .allowed => { s with phase := if s.services.isEmpty then .waiting else .loaded }
    | _ => s
  | .begin =>
    match s.phase with
    | .loaded => { s with phase := .running ⟨s.ipChanged.value.getD "", s.announced⟩, owed := false }
    | _ => s
  | .finish =>
    match s.phase with
    | .running result => { s with phase := .waiting, results := s.results ++ [result] }
    | _ => s

end ServerBee.IpQuality
