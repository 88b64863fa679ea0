/-
Viewers of one agent's docker data (`service/docker_viewer.rs`, `router/ws/browser.rs`, the agent's
`reporter/docker_subsystem.rs` and `docker/mod.rs`).

The agent is connected, has the docker capability and an available daemon, and gets its messages through one FIFO channel. A
browser connection runs one handler at a time. The steps of a handler are its operations on the concurrent map and its sends:
`remove_viewer` drops the emptied set before it removes the key, and a disconnect looks for the connection before it
removes it. A map operation holds the entry's lock. Other servers have other entries and channels. What the agent sends back
is not here.
-/
import ServerBee.Lib.Registers
import ServerBee.Lib.Run
import Mathlib.Data.Finset.Basic

namespace ServerBee.Docker

/-! ## The agent -/

inductive ServerMessage where
  | dockerStartStats (intervalSecs : ℕ)
  | dockerStopStats
  | dockerEventsStart
  | dockerEventsStop
deriving DecidableEq, Repr

structure DockerSubsystem where
  statsInterval : Option ℕ
  eventStream : Bool
deriving DecidableEq, Repr

def DockerSubsystem.handle (d : DockerSubsystem) : ServerMessage → DockerSubsystem
  | .dockerStartStats intervalSecs => { d with statsInterval := some (max intervalSecs 1) }
  | .dockerStopStats => { d with statsInterval := none }
  | .dockerEventsStart => { d with eventStream := true }
  | .dockerEventsStop => { d with eventStream := false }

/-! ## The server -/

/-- where a connection's handler is -/
inductive Handler where
  | idle
  /-- a disconnect has found the connection in the set -/
  | scanned
  /-- the set is empty and dropped; the key is removed next -/
  | removing
  | sending (msgs : List ServerMessage)
deriving DecidableEq, Repr

def startMsgs : List ServerMessage := [.dockerStartStats 3, .dockerEventsStart]

def stopMsgs : List ServerMessage := [.dockerStopStats, .dockerEventsStop]

structure State (C : Type) where
  /-- the entry of `viewers` -/
  viewers : Option (Finset C)
  handler : C → Handler
  closed : Finset C
  channel : List ServerMessage
  agent : DockerSubsystem
  /-- the connections whose last finished map operation was a subscription (not stored by the code) -/
  subscribed : Finset C
  /-- the handlers that were first or last and have not sent everything, oldest first (not stored by the code) -/
  order : List C

variable {C : Type} [DecidableEq C]

def State.init : State C := ⟨none, fun _ => .idle, ∅, [], ⟨none, false⟩, ∅, []⟩

/-- a handler learns that it is the first or the last -/
def decided (s : State C) (c : C) (handler : Handler) : State C :=
  { s with handler := Function.update s.handler c handler, order := s.order ++ [c] }

def addViewer (s : State C) (c : C) : State C :=
  let set := s.viewers.getD ∅
  let added := { s with viewers := some (insert c set), subscribed := insert c s.subscribed }
  if set = ∅ then decided added c (.sending startMsgs) else added

/-- `remove_viewer`, up to the removal of the key -/
def removeViewer (s : State C) (c : C) : State C :=
  let s := { s with handler := Function.update s.handler c .idle, subscribed := s.subscribed.erase c }
  match s.viewers with
  | none => s
  | some set =>
    let removed := { s with viewers := some (set.erase c) }
    if set.erase c = ∅ then decided removed c .removing else removed

inductive Op (C : Type) where
  | subscribe (c : C)
  | unsubscribe (c : C)
  | disconnect (c : C)
  /-- the next step of a connection's handler -/
  | next (c : C)
  /-- the agent handles a message -/
  | handle
deriving DecidableEq, Repr

/-- the connection can start a handler -/
def Free (s : State C) (c : C) : Prop := s.handler c = .idle ∧ c ∉ s.closed

instance (s : State C) (c : C) : Decidable (Free s c) := inferInstanceAs (Decidable (_ ∧ _))

def next (s : State C) (c : C) : State C :=
  match s.handler c with
  | .idle => s
  | .scanned => removeViewer s c
  | .removing => { s with viewers := none, handler := Function.update s.handler c (.sending stopMsgs) }
  | .sending [] => { s with handler := Function.update s.handler c .idle }
  | .sending [msg] =>
    { s with channel := s.channel ++ [msg], handler := Function.update s.handler c .idle, order := s.order.erase c }
  | .sending (msg :: msgs) =>
    { s with channel := s.channel ++ [msg], handler := Function.update s.handler c (.sending msgs) }

def step (s : State C) : Op C → State C
  | .subscribe c => if Free s c then addViewer s c else s
  | .unsubscribe c => if Free s c then removeViewer s c else s
  | .disconnect c =>
    if Free s c then
      let closed := { s with closed := insert c s.closed }
      if c ∈ s.viewers.getD ∅ then { closed with handler := Function.update s.handler c .scanned }
      else { closed with subscribed := s.subscribed.erase c }
    else s
  | .next c => next s c
  | .handle =>
    match s.channel with
    | [] => s
    | msg :: channel => { s with channel, agent := s.agent.handle msg }

end ServerBee.Docker
