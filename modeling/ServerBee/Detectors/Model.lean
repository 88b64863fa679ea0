/-
The scan and brute-force detectors (`security/scan_detector.rs`, `security/ssh_detector.rs`).

An `Instant` is a number of nanoseconds since the earliest one, and each operation reads the clock once: `now`. Counters of
type `u32` wrap, as they do in a release build.
-/
import ServerBee.SshLogins.Parser
import Mathlib.Data.List.AList

namespace ServerBee.Detectors

open ServerBee.Lib ServerBee.SshLogins

/-! ## Machine numbers -/

/-- `n as u32` -/
def asU32 (n : ℕ) : ℕ := n % 2 ^ 32

/-- `now.checked_sub(window).unwrap_or(now)` -/
def cutoffOf (now window : ℕ) : ℕ := if window ≤ now then now - window else now

/-- the first `limit` distinct values, in order -/
def sampleLoop {α : Type} [DecidableEq α] (limit : ℕ) : List α → List α → List α
  | [], sample => sample
  | a :: as, sample =>
    if a ∈ sample then sampleLoop limit as sample
    else if limit ≤ (sample ++ [a]).length then sample ++ [a]
    else sampleLoop limit as (sample ++ [a])

/-! ## Port scans -/

abbrev PortCounts := AList fun _ : UInt16 => ℕ

structure ScanState where
  events : List (ℕ × UInt16)
  portCounts : PortCounts
  total : ℕ
  blocked : ℕ
  windowStartedAt : Option ℕ

def ScanState.new (now : ℕ) : ScanState := ⟨[], ∅, 0, 0, some now⟩

structure PortScanEvidence where
  distinctPorts : ℕ
  samplePorts : List UInt16
  totalAttempts : ℕ
  windowSeconds : ℕ
  threshold : UInt32
  blockedCount : ℕ
deriving DecidableEq, Repr

inductive ScanEmit where
  | none
  | portScan (sourceIp : Text) (evidence : PortScanEvidence) (startedAt endedAt : ℕ)
deriving DecidableEq, Repr

structure ScanDetector where
  window : ℕ
  threshold : UInt32
  perIp : Text → Option ScanState

def ScanDetector.new (window : ℕ) (threshold : UInt32) : ScanDetector := ⟨window, threshold, fun _ => .none⟩

/-- `*port_counts.entry(port).or_insert(0) += 1` -/
def countPort (m : PortCounts) (port : UInt16) : PortCounts := m.insert port (asU32 ((m.lookup port).getD 0 + 1))

/-- `*c -= 1`, and the entry is dropped at 0 -/
def uncountPort (m : PortCounts) (port : UInt16) : PortCounts :=
  match m.lookup port with
  | .none => m
  | some c =>
    let c := asU32 (c + 2 ^ 32 - 1)
    if c = 0 then m.erase port else m.insert port c

/-- `events.pop_front()` with what follows it -/
def popFront (s : ScanState) (port : UInt16) (rest : List (ℕ × UInt16)) : ScanState :=
  { s with events := rest, portCounts := uncountPort s.portCounts port, total := s.total - 1 }

def expireLoop (cutoff : ℕ) : List (ℕ × UInt16) → ScanState → ScanState
  | [], s => s
  | (ts, port) :: rest, s => if ts < cutoff then expireLoop cutoff rest (popFront s port rest) else s

def expireHead (s : ScanState) (cutoff : ℕ) : ScanState :=
  let s := expireLoop cutoff s.events s
  { s with windowStartedAt := s.events.head?.map Prod.fst }

def ScanDetector.put (d : ScanDetector) (ip : Text) (s : ScanState) : ScanDetector :=
  { d with perIp := Function.update d.perIp ip (some s) }

def pushAttempt (s : ScanState) (now : ℕ) (port : UInt16) : ScanState :=
  { s with
    events := s.events ++ [(now, port)]
    portCounts := countPort s.portCounts port
    total := asU32 (s.total + 1)
    windowStartedAt := some (s.windowStartedAt.getD now) }

/-- the state that an emission leaves -/
def ScanState.cleared : ScanState := ⟨[], ∅, 0, 0, .none⟩

namespace ScanDetector

/-- what an emission of this state reports -/
def report (d : ScanDetector) (ip : Text) (s : ScanState) (now : ℕ) : ScanEmit :=
  .portScan ip ⟨asU32 s.portCounts.keys.length, sampleLoop 20 (s.events.map Prod.snd) [], s.total,
    asU32 (d.window / 10 ^ 9), d.threshold, s.blocked⟩ (s.windowStartedAt.getD now) now

def observe (d : ScanDetector) (now : ℕ) (ip : Text) (port : UInt16) : ScanDetector × ScanEmit :=
  let state := (d.perIp ip).getD (.new now)
  let state := pushAttempt (expireHead state (cutoffOf now d.window)) now port
  if d.threshold.toNat ≤ asU32 state.portCounts.keys.length then (d.put ip .cleared, d.report ip state now)
  else (d.put ip state, .none)

def recordBlocked (d : ScanDetector) (now : ℕ) (ip : Text) : ScanDetector :=
  let state := (d.perIp ip).getD (.new now)
  d.put ip { state with blocked := min (state.blocked + 1) (2 ^ 32 - 1) }

def sweep (d : ScanDetector) (now : ℕ) : ScanDetector :=
  { d with perIp := fun ip => ((d.perIp ip).map fun s => expireHead s (cutoffOf now d.window)).filter fun s =>
      !s.events.isEmpty || decide (0 < s.blocked) }

end ScanDetector

inductive ScanOp where
  | observe (ip : Text) (port : UInt16)
  | recordBlocked (ip : Text)
  | sweep

def ScanDetector.step (d : ScanDetector) (now : ℕ) : ScanOp → ScanDetector × ScanEmit
  | .observe ip port => d.observe now ip port
  | .recordBlocked ip => (d.recordBlocked now ip, .none)
  | .sweep => (d.sweep now, .none)

/-- a run: the detector before each operation, the operation with its time, and what it emits -/
def ScanDetector.run (d : ScanDetector) : List (ℕ × ScanOp) → List (ScanDetector × (ℕ × ScanOp) × ScanEmit)
  | [] => []
  | (now, op) :: ops => (d, (now, op), (d.step now op).2) :: (d.step now op).1.run ops

/-! ## Brute force -/

inductive Severity where
  | info | low | medium | high | critical
deriving DecidableEq, Repr

structure BruteForceEvidence where
  failedCount : ℕ
  distinctUsers : ℕ
  sampleUsers : List Text
  invalidUserCount : ℕ
  windowSeconds : ℕ
  threshold : UInt32
deriving DecidableEq, Repr

inductive DetectorEmit where
  | none
  | bruteForce (sourceIp : Text) (severity : Severity) (evidence : BruteForceEvidence) (startedAt endedAt : ℕ)
  | login (username sourceIp : Text) (sourcePort : Option ℕ) (authMethod : AuthMethodHint)
deriving DecidableEq, Repr

structure SshDetector where
  window : ℕ
  threshold : UInt32
  perIp : Text → Option (List (ℕ × AuthAttempt))

def SshDetector.new (window : ℕ) (threshold : UInt32) : SshDetector := ⟨window, threshold, fun _ => .none⟩

/-- the loop that drops what is older than the cutoff at the head -/
def expireQueue {α : Type} (cutoff : ℕ) : List (ℕ × α) → List (ℕ × α)
  | [] => []
  | (ts, a) :: rest => if ts < cutoff then expireQueue cutoff rest else (ts, a) :: rest

def isInvalidUser (a : AuthAttempt) : Bool := decide (a.outcome = .failure true)

def severityOf (distinctUsers : ℕ) : Severity :=
  if distinctUsers ≤ 1 then .medium else if distinctUsers ≤ 4 then .high else .critical

namespace SshDetector

/-- what an emission of this queue reports -/
def report (d : SshDetector) (ip : Text) (q : List (ℕ × AuthAttempt)) (now : ℕ) : DetectorEmit :=
  let users := q.map fun e => e.2.username
  let distinctUsers := asU32 users.dedup.length
  .bruteForce ip (severityOf distinctUsers) ⟨asU32 q.length, distinctUsers, sampleLoop 5 users [],
    asU32 (q.countP fun e => isInvalidUser e.2), asU32 (d.window / 10 ^ 9), d.threshold⟩ ((q.head?.map Prod.fst).getD now) now

def observeFailure (d : SshDetector) (now : ℕ) (attempt : AuthAttempt) : SshDetector × DetectorEmit :=
  let ip := attempt.sourceIp
  let entry := expireQueue (cutoffOf now d.window) ((d.perIp ip).getD []) ++ [(now, attempt)]
  if d.threshold.toNat ≤ asU32 entry.length then
    ({ d with perIp := Function.update d.perIp ip (some []) }, d.report ip entry now)
  else ({ d with perIp := Function.update d.perIp ip (some entry) }, .none)

def observe (d : SshDetector) (now : ℕ) (attempt : AuthAttempt) : SshDetector × DetectorEmit :=
  match attempt.outcome with
  | .success authMethod => (d, .login attempt.username attempt.sourceIp attempt.sourcePort authMethod)
  | .failure _ => d.observeFailure now attempt

def sweep (d : SshDetector) (now : ℕ) : SshDetector :=
  { d with perIp := fun ip => ((d.perIp ip).map (expireQueue (cutoffOf now d.window))).filter fun q => !q.isEmpty }

end SshDetector

inductive SshOp where
  | observe (attempt : AuthAttempt)
  | sweep

def SshDetector.step (d : SshDetector) (now : ℕ) : SshOp → SshDetector × DetectorEmit
  | .observe attempt => d.observe now attempt
  | .sweep => (d.sweep now, .none)

def SshDetector.run (d : SshDetector) : List (ℕ × SshOp) → List (SshDetector × (ℕ × SshOp) × DetectorEmit)
  | [] => []
  | (now, op) :: ops => (d, (now, op), (d.step now op).2) :: (d.step now op).1.run ops

end ServerBee.Detectors
