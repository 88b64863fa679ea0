/-
Delivery of capability events (`capability_grants/authority.rs` and the connection loop of `reporter/mod.rs` at the agent,
`on_capabilities_changed` of `router/ws/agent/security.rs` at the server).

MODEL: one agent with its journal, any number of servers (`host` says which server's rows a destination reaches), and a
network that keeps every frame and every acknowledgement it was ever given. It delivers them in any order, many times or
never, so loss, duplication and delay are runs. The agent restarts and reconnects between any two steps, and a database
transaction commits or not. The id of an event is drawn once: uuids are the numbers of a counter that no restart resets.
The digest that a receipt stores stands for the payload itself. What an alert capture adds to the intents is in
`Alerts/Suppression`; here a server lists the captures it committed.
NOT CLAIMED: that a frame arrives. A server's row is not deleted, and nobody edits the journal's file.
-/
import Mathlib.Data.List.Basic
import Mathlib.Logic.Function.Basic
import ServerBee.Capabilities.Authority

namespace ServerBee.CapabilityEvents

open ServerBee.Capabilities

/-! ## The journal's operations -/

/-- `next.flush()?` and then the journal in memory: a failed flush leaves the memory as it was -/
def replaceJournal (a : CapabilityAuthority) (next : Journal) (flush : Flush) : CapabilityAuthority × Bool :=
  if flush = .saved then ({ a with journal := { next with dirty := false }, file := a.flushed next flush }, true)
  else ({ a with file := a.flushed next flush }, false)

/-- the journal that `bind_destination` writes: another owner's events go -/
def bound (journal : Journal) (destination : String) : Journal :=
  { journal with
    destination := some destination
    events := if journal.destination.any (· != destination) then [] else journal.events }

def bindDestination (a : CapabilityAuthority) (destination : String) (flush : Flush) : CapabilityAuthority × Bool :=
  if a.journal.destination == some destination && !a.journal.dirty then (a, true)
  else replaceJournal a (bound a.journal destination) flush

def pendingEvents (a : CapabilityAuthority) : Option (List Event) :=
  if a.journal.dirty then none else some a.journal.events

def acknowledgeEvent (a : CapabilityAuthority) (msgId : ℕ) (flush : Flush) : CapabilityAuthority × Bool :=
  if a.journal.events.any (·.msgId == msgId) then
    replaceJournal a { a.journal with events := a.journal.events.filter (·.msgId != msgId) } flush
  else (a, true)

def discardLegacyEvents (a : CapabilityAuthority) (flush : Flush) : CapabilityAuthority × Bool :=
  if a.journal.events.isEmpty then (a, true) else replaceJournal a { a.journal with events := [] } flush

/-! ## The server -/

/-- `AgentMessage::CapabilitiesChanged` -/
structure Frame where
  msgId : ℕ
  /-- none from an agent that expects no acknowledgement -/
  occurredAt : Option ℤ
  capabilities : BitVec 32
  temporary : List TemporaryGrant
  changes : List CapabilityChangeEvent
deriving DecidableEq, Repr

abbrev Payload := Option ℤ × List CapabilityChangeEvent

def Frame.payload (frame : Frame) : Payload := (frame.occurredAt, frame.changes)

def payloadOf (event : Event) : Payload := (some event.occurredAt, event.changes)

/-- times of the server are nanoseconds -/
structure Receipt where
  msgId : ℕ
  payload : Payload
  occurredAt : ℤ
deriving DecidableEq, Repr

structure AuditLog where
  action : String
  serverName : String
  cap : String
  expiresAt : Option ℤ
  grantedBy : Option String
  reason : Option String
  ip : String
  createdAt : ℤ
deriving DecidableEq, Repr

structure ServerRow where
  name : String
  capabilities : BitVec 32
deriving DecidableEq, Repr

structure Database where
  server : Option ServerRow
  receipts : List Receipt
  audits : List AuditLog
  /-- the times of the captures of `capability_grant_detected` -/
  captures : List ℤ
deriving DecidableEq, Repr

def Database.rename (db : Database) (name : String) : Database :=
  { db with server := db.server.map fun row => { row with name := name } }

def action : CapabilityChangeAction → String
  | .granted => "capability_temporarily_granted"
  | .expired => "capability_grant_expired"
  | .revoked => "capability_grant_revoked"

def isHighRiskCap : CapabilityKey → Bool
  | .terminal => true
  | .exec => true
  | .file => true
  | .docker => true
  | _ => false

def auditLog (name ip : String) (occurredAt : ℤ) (change : CapabilityChangeEvent) : AuditLog :=
  ⟨action change.action, name, change.cap.asStr, change.expiresAt, change.grantedBy, change.reason, ip, occurredAt⟩

/-- the change is captured for the alerts -/
def alerting (change : CapabilityChangeEvent) : Bool := change.action = .granted && isHighRiskCap change.cap

def updateCapabilitiesMirror (db : Database) (capabilities : BitVec 32) : Database :=
  { db with server := db.server.map fun row => { row with capabilities := capabilities } }

/-- a second as nanoseconds -/
def nanos (seconds : ℤ) : ℤ := seconds * 1000000000

/-- the transaction up to its commit; none where it returns an error -/
def admission (db : Database) (ip : String) (now : ℤ) (frame : Frame) : Option Database :=
  match db.receipts.find? (·.msgId == frame.msgId) with
  | some old =>
    -- the identity of another content is refused
    if old.payload = frame.payload then some (updateCapabilitiesMirror db frame.capabilities) else none
  | none =>
    let occurredAt := (frame.occurredAt.map nanos).getD now
    if now + nanos 300 < occurredAt then none
    else db.server.map fun row =>
      { updateCapabilitiesMirror db frame.capabilities with
        audits := db.audits ++ frame.changes.map (auditLog row.name ip occurredAt)
        captures := db.captures ++ (frame.changes.filter alerting).map fun _ => occurredAt
        receipts := db.receipts ++ [⟨frame.msgId, frame.payload, occurredAt⟩] }

/-! ## The connection and the system -/

structure Connection where
  /-- the destination of the peer, which the agent knows from a `Welcome` only -/
  peer : String
  welcomed : Bool
  capabilityEventAck : Bool
  inflight : Option ℕ
  /-- the broadcast transitions that the connection has not taken -/
  transitions : List CapabilityTransition
deriving DecidableEq, Repr

variable {σ : Type} [DecidableEq σ] (representable : ℤ → Bool) (host : String → σ)

structure St (σ : Type) where
  agent : CapabilityAuthority
  connection : Option Connection
  /-- every frame sent, with the server it was sent to -/
  frames : List (σ × Frame)
  /-- every acknowledgement sent, with the server that sent it -/
  acks : List (σ × ℕ)
  servers : σ → Database

inductive Op (σ : Type) where
  | tick (store : CapabilityGrantStore) (now : ℤ) (flush : Flush)
  /-- a connection whose first message is a `Welcome`, with what it says of acknowledgements, or another one -/
  | connect (peer : String) (welcome : Option Bool)
  | disconnect
  /-- `capability_retry`; the store is read for the grants that the frame shows -/
  | retry (store : CapabilityGrantStore) (now : ℤ) (bind discard : Flush)
  /-- the next transition of the broadcast -/
  | transition (store : CapabilityGrantStore) (now : ℤ) (discard : Flush)
  | deliver (i : ℕ) (ip : String) (now : ℤ) (commits : Bool)
  | acknowledge (i : ℕ) (flush : Flush)
  | rename (server : σ) (name : String)
  | restart (base : BitVec 32) (store : CapabilityGrantStore) (now now' : ℤ) (flush : Flush)

/-- `broadcast::channel(16)` -/
def transitionCapacity : ℕ := 16

namespace St

variable (s : St σ)

def setAgent (agent : CapabilityAuthority) : St σ := { s with agent := agent }

def setConnection (connection : Connection) : St σ := { s with connection := some connection }

def send (server : σ) (frame : Frame) : St σ := { s with frames := s.frames ++ [(server, frame)] }

/-- the next uuid is drawn for the frame of a legacy connection -/
def announce (server : σ) (capabilities : BitVec 32) (temporary : List TemporaryGrant)
    (changes : List CapabilityChangeEvent) : St σ :=
  { s with
    agent := { s.agent with fresh := s.agent.fresh + 1 }
    frames := s.frames ++ [(server, ⟨s.agent.fresh, none, capabilities, temporary, changes⟩)] }

@[simp] theorem setAgent_agent (agent : CapabilityAuthority) : (s.setAgent agent).agent = agent := rfl

@[simp] theorem setConnection_agent (c : Connection) : (s.setConnection c).agent = s.agent := rfl

@[simp] theorem send_agent (server : σ) (frame : Frame) : (s.send server frame).agent = s.agent := rfl

@[simp] theorem announce_agent (server : σ) (capabilities : BitVec 32) (temporary : List TemporaryGrant)
    (changes : List CapabilityChangeEvent) : (s.announce server capabilities temporary changes).agent =
      { s.agent with fresh := s.agent.fresh + 1 } := rfl

def tick (store : CapabilityGrantStore) (now : ℤ) (flush : Flush) : St σ :=
  let ticked := Capabilities.tick representable s.agent store now flush
  { s with
    agent := ticked.1
    connection := s.connection.map fun c => { c with transitions := c.transitions ++ ticked.2.toList } }

/-- the first pending event goes out after the destination is durable -/
def retry (c : Connection) (store : CapabilityGrantStore) (now : ℤ) (bind discard : Flush) : St σ :=
  if c.welcomed then
    let owned := bindDestination s.agent c.peer bind
    if owned.2 then
      if c.capabilityEventAck then
        match (pendingEvents owned.1).bind List.head? with
        | none => s.setAgent owned.1
        | some event =>
          ((s.setAgent owned.1).setConnection { c with inflight := some event.msgId }).send (host c.peer)
            ⟨event.msgId, some event.occurredAt, owned.1.effective, store.activeGrants now owned.1.base, event.changes⟩
      else s.setAgent (discardLegacyEvents owned.1 discard).1
    else s.setAgent owned.1
  else s

def transition (c : Connection) (store : CapabilityGrantStore) (now : ℤ) (discard : Flush) : St σ :=
  if transitionCapacity < c.transitions.length then
    -- the receiver lagged: a snapshot goes out whether or not the peer acknowledges
    (s.setConnection { c with transitions := c.transitions.drop (c.transitions.length - transitionCapacity) }).announce
      (host c.peer) s.agent.effective (store.activeGrants now s.agent.base) []
  else match c.transitions with
    | [] => s
    | t :: rest =>
      let s := s.setConnection { c with transitions := rest }
      if c.capabilityEventAck then s
      else
        let s := s.announce (host c.peer) t.effective t.temporary t.changes
        s.setAgent (discardLegacyEvents s.agent discard).1

/-- `on_capabilities_changed`: the acknowledgement follows the commit -/
def deliver (server : σ) (frame : Frame) (ip : String) (now : ℤ) (commits : Bool) : St σ :=
  match (if commits then admission (s.servers server) ip now frame else none) with
  | none => s
  | some db =>
    { s with
      servers := Function.update s.servers server db
      acks := if frame.occurredAt.isSome then s.acks ++ [(server, frame.msgId)] else s.acks }

/-- the connection reads an acknowledgement -/
def acknowledge (c : Connection) (msgId : ℕ) (flush : Flush) : St σ :=
  if c.capabilityEventAck && c.inflight == some msgId then
    let done := acknowledgeEvent s.agent msgId flush
    if done.2 then (s.setAgent done.1).setConnection { c with inflight := none } else s.setAgent done.1
  else s

/-- the process starts again on the journal's file; drawn ids stay drawn -/
def restart (base : BitVec 32) (store : CapabilityGrantStore) (now now' : ℤ) (flush : Flush) : St σ :=
  { s with
    agent := { CapabilityAuthority.tryNew base s.agent.file store now now' flush with fresh := s.agent.fresh }
    connection := none }

end St

def step (s : St σ) : Op σ → St σ
  | .tick store now flush => s.tick representable store now flush
  | .connect peer welcome => { s with connection := some ⟨peer, welcome.isSome, welcome.getD false, none, []⟩ }
  | .disconnect => { s with connection := none }
  | .retry store now bind discard => s.connection.elim s fun c => s.retry host c store now bind discard
  | .transition store now discard => s.connection.elim s fun c => s.transition host c store now discard
  | .deliver i ip now commits => (s.frames[i]?).elim s fun f => s.deliver f.1 f.2 ip now commits
  | .acknowledge i flush =>
    (s.acks[i]?).elim s fun ack => s.connection.elim s fun c =>
      -- an acknowledgement comes over a connection of the server that sent it
      if host c.peer = ack.1 then s.acknowledge c ack.2 flush else s
  | .rename server name => { s with servers := Function.update s.servers server ((s.servers server).rename name) }
  | .restart base store now now' flush => s.restart base store now now' flush

section

variable {representable host} {s : St σ} {P : St σ → Prop}

/-- without a connection a retry does nothing -/
theorem step_retry {store : CapabilityGrantStore} {now : ℤ} {bind discard : Flush} (hs : P s)
    (hc : ∀ c, s.connection = some c → P (s.retry host c store now bind discard)) :
    P (step representable host s (.retry store now bind discard)) := by
  show P (s.connection.elim s fun c => s.retry host c store now bind discard)
  cases h : s.connection with
  | none => exact hs
  | some c => exact hc c h

theorem step_transition {store : CapabilityGrantStore} {now : ℤ} {discard : Flush} (hs : P s)
    (hc : ∀ c, s.connection = some c → P (s.transition host c store now discard)) :
    P (step representable host s (.transition store now discard)) := by
  show P (s.connection.elim s fun c => s.transition host c store now discard)
  cases h : s.connection with
  | none => exact hs
  | some c => exact hc c h

theorem step_deliver {i : ℕ} {ip : String} {now : ℤ} {commits : Bool} (hs : P s)
    (hf : ∀ frame ∈ s.frames, P (s.deliver frame.1 frame.2 ip now commits)) :
    P (step representable host s (.deliver i ip now commits)) := by
  show P ((s.frames[i]?).elim s fun f => s.deliver f.1 f.2 ip now commits)
  cases h : s.frames[i]? with
  | none => exact hs
  | some frame => exact hf frame (List.mem_of_getElem? h)

/-- an acknowledgement that is read comes from the server of the connection -/
theorem step_acknowledge {i : ℕ} {flush : Flush} (hs : P s)
    (ha : ∀ ack ∈ s.acks, ∀ c, s.connection = some c → host c.peer = ack.1 → P (s.acknowledge c ack.2 flush)) :
    P (step representable host s (.acknowledge i flush)) := by
  show P ((s.acks[i]?).elim s fun ack => s.connection.elim s fun c =>
    if host c.peer = ack.1 then s.acknowledge c ack.2 flush else s)
  cases h : s.acks[i]? with
  | none => exact hs
  | some ack =>
    cases hc : s.connection with
    | none => exact hs
    | some c =>
      show P (if host c.peer = ack.1 then s.acknowledge c ack.2 flush else s)
      by_cases hp : host c.peer = ack.1
      · rw [if_pos hp]
        exact ha ack (List.mem_of_getElem? h) c hc hp
      · rw [if_neg hp]
        exact hs

end

def run (ops : List (Op σ)) (s : St σ) : St σ := ops.foldl (step representable host) s

/-- a first start beside servers that have admitted nothing -/
def start (rows : σ → Option ServerRow) (base : BitVec 32) (store : CapabilityGrantStore) (now now' : ℤ) (flush : Flush) :
    St σ where
  agent := CapabilityAuthority.tryNew base none store now now' flush
  connection := none
  frames := []
  acks := []
  servers := fun server => ⟨rows server, [], [], []⟩

end ServerBee.CapabilityEvents
