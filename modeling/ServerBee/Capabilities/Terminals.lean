/-
Live terminals of one connection (`terminal.rs`, `reporter/mod.rs`, `reporter/runtime.rs`).

The loop handles one message at a time; `close_all` closes every session and then awaits one send for each. Readers and spawned
tasks send on a bounded channel that the loop reads. A send that fails ends the connection, and with it the manager. A PTY
has a number of its own (`pty`), which the code does not have: an id can be used again.
-/
import ServerBee.Capabilities.Authority
import Mathlib.Logic.Function.Basic

namespace ServerBee.Capabilities

def maxTerminalSessions : ℕ := 3

structure PtySession where
  id : String
  pty : ℕ
deriving DecidableEq, Repr

inductive TerminalEvent where
  | output (id : String) (pty : ℕ)
  | started (id : String) (pty : ℕ)
  | exited (id : String) (pty : ℕ)
  /-- of an open that is refused or fails -/
  | error (id : String)
deriving DecidableEq, Repr

/-- what the server gets about a session -/
inductive Frame where
  | terminalOutput
  | terminalStarted
  | terminalError
deriving DecidableEq, Repr

/-- `since` is a history: the frames about a session since the loss of the capability has closed it -/
structure State where
  authority : CapabilityAuthority
  /-- what the transition receiver still holds -/
  unread : List CapabilityTransition
  lagged : Bool
  sessions : List PtySession
  readers : List PtySession
  /-- tasks that have not sent their event yet -/
  spawned : List TerminalEvent
  events : List TerminalEvent
  /-- sessions that `close_all` has returned and that the loop has not reported yet -/
  reporting : List PtySession
  since : ℕ → Option (List Frame)
  /-- the number of the next PTY -/
  ptys : ℕ

def State.init (authority : CapabilityAuthority) : State := ⟨authority, [], false, [], [], [], [], [], fun _ => none, 0⟩

namespace State

variable (s : State)

def spawn (event : TerminalEvent) : State := { s with spawned := s.spawned ++ [event] }

/-- the channel has 256 places -/
def send (event : TerminalEvent) : State := { s with events := s.events ++ [event] }

def sendFrame (pty : ℕ) (frame : Frame) : State :=
  { s with since := Function.update s.since pty ((s.since pty).map (· ++ [frame])) }

def close (id : String) : State := { s with sessions := s.sessions.filter (·.id ≠ id) }

def closeAll : State := { s with
  sessions := []
  reporting := s.sessions
  since := fun pty => if pty ∈ s.sessions.map PtySession.pty then some [] else s.since pty }

/-- a receiver holds 16 transitions; the oldest makes room -/
def broadcast (transition : CapabilityTransition) : State :=
  if s.unread.length < 16 then { s with unread := s.unread ++ [transition] }
  else { s with unread := s.unread.tail ++ [transition], lagged := true }

/-- TerminalManager::open; the PTY or the shell fails -/
def openTerminal (id : String) (fails : Bool) : State :=
  if !s.authority.has .terminal then s.spawn (.error id)
  else if maxTerminalSessions ≤ s.sessions.length then s.spawn (.error id)
  else if s.sessions.any (·.id = id) then s
  else if fails then s.spawn (.error id)
  else { s with
    sessions := s.sessions ++ [⟨id, s.ptys⟩]
    readers := s.readers ++ [⟨id, s.ptys⟩]
    spawned := s.spawned ++ [.started id s.ptys]
    ptys := s.ptys + 1 }

/-- the terminal arm of the loop -/
def handleEvent : TerminalEvent → State
  | .output _ pty => s.sendFrame pty .terminalOutput
  | .started _ pty => s.sendFrame pty .terminalStarted
  | .exited id pty => (s.close id).sendFrame pty .terminalError
  | .error _ => s

/-- the transition arm, up to the first report -/
def handleTransition (transition : CapabilityTransition) : State :=
  if hasCapability transition.effective CapabilityKey.terminal.toBit then s else s.closeAll

end State

/-! ## Steps -/

inductive ReaderStep where
  | output
  /-- the end of the output, or an error -/
  | exits
  /-- the abort of a closed session, which only a reader that has not begun obeys -/
  | aborts
deriving DecidableEq, Repr

inductive Op where
  | tick (store : CapabilityGrantStore) (now : ℤ) (flush : Flush)
  | terminalOpen (id : String) (fails : Bool)
  /-- the write fails -/
  | terminalInput (id : String) (fails : Bool)
  | terminalClose (id : String)
  | transition
  | report
  | event
  /-- a spawned task sends its event -/
  | spawned (i : ℕ)
  | reader (i : ℕ) (act : ReaderStep)
deriving DecidableEq, Repr

/-- the steps of the loop, which is in no handler -/
def idleStep (s : State) : Op → State
  | .terminalOpen id fails => s.openTerminal id fails
  | .terminalInput id fails => if fails then s.close id else s
  | .terminalClose id => s.close id
  | .transition =>
    if s.lagged then { s with lagged := false }
    else match s.unread with
      | [] => s
      | transition :: rest => { s with unread := rest }.handleTransition transition
  | .event =>
    match s.events with
    | [] => s
    | event :: rest => { s with events := rest }.handleEvent event
  | _ => s

def readerStep (s : State) (session : PtySession) : ReaderStep → State
  | .output => if s.events.length < 256 then s.send (.output session.id session.pty) else s
  | .exits =>
    if s.events.length < 256 then { s.send (.exited session.id session.pty) with readers := s.readers.erase session } else s
  | .aborts => if session ∈ s.sessions then s else { s with readers := s.readers.erase session }

variable (representable : ℤ → Bool)

def step (s : State) : Op → State
  | .tick store now flush =>
    let (authority, transition) := tick representable s.authority store now flush
    match transition with
    | none => { s with authority := authority }
    | some transition => { s with authority := authority }.broadcast transition
  | .report =>
    match s.reporting with
    | [] => s
    | session :: rest => { s with reporting := rest }.sendFrame session.pty .terminalError
  | .spawned i =>
    match s.spawned[i]? with
    | none => s
    | some event => if s.events.length < 256 then { s.send event with spawned := s.spawned.eraseIdx i } else s
  | .reader i act =>
    match s.readers[i]? with
    | none => s
    | some session => readerStep s session act
  | op => if s.reporting = [] then idleStep s op else s

end ServerBee.Capabilities
