/-
How blocks reach the agents (`router/api/firewall.rs`, `service/firewall.rs`, the firewall part of
`service/agent_reconcile.rs`).

A task is a call of `create_block`, `delete_block`, `auto_block` or a reconcile, up to its next await. A mutation commits
its row and then pushes one message to each online agent, without the provider lock; a reconcile holds the lock while it
sends a reset, reads the table and sends a sync, server by server. Every connection has a FIFO channel. A statement of a
task fails where the operation says so, and a block draws an id that no block had before.
-/
import Mathlib.Data.List.Sort
import ServerBee.Firewall.Agent

namespace ServerBee.Firewall

open ServerBee.Lib

/-! ## The block list -/

structure BlockRow where
  id : ℕ
  target : String
  family : ℤ
  coverType : String
  /-- `server_ids_json`; no text and no list of strings are the empty list -/
  serverIds : List ℕ
  createdAt : ℤ
deriving DecidableEq, Repr

/-- a block before it has an id -/
structure BlockReq where
  target : String
  family : ℤ
  coverType : String
  serverIds : List ℕ
  createdAt : ℤ
deriving DecidableEq, Repr

def BlockReq.row (req : BlockReq) (id : ℕ) : BlockRow :=
  ⟨id, req.target, req.family, req.coverType, req.serverIds, req.createdAt⟩

/-- `rule_covers_server` -/
def BlockRow.covers (row : BlockRow) (serverId : ℕ) : Bool :=
  if row.coverType = "include" then row.serverIds.contains serverId
  else if row.coverType = "exclude" then !row.serverIds.contains serverId
  else true

/-- the family is cast to an octet -/
def BlockRow.entry (row : BlockRow) : BlockEntry := ⟨row.id, row.target, (row.family % 256).toNat⟩

abbrev BlockList := Table BlockRow.id

def listForServer (rows : BlockList) (serverId : ℕ) : List BlockEntry :=
  ((rows.rows.insertionSort fun r r' => r.createdAt ≤ r'.createdAt).filter fun r => r.covers serverId).map BlockRow.entry

/-! ## Agents and channels -/

def firewallMinProtocol : ℕ := 2
def capFirewallBlock : ℕ := 512

def hasCapability (capabilities capBit : ℕ) : Bool := capabilities &&& capBit != 0

structure Conn where
  serverId : ℕ
  protocolVersion : ℕ
deriving DecidableEq, Repr

/-- what a mutation did to its row -/
inductive Change where
  | created
  | deleted
deriving DecidableEq, Repr

def Change.message : Change → BlockRow → ServerMessage
  | .created, row => .blocklistAdd row.entry
  | .deleted, row => .blocklistRemove row.id

inductive Task where
  | idle
  /-- `auto_block` before it looks up the target -/
  | lookup (req : BlockReq) (serverId : ℕ)
  | insert (req : BlockReq)
  | find (id : ℕ)
  | found (row : BlockRow)
  /-- after the commit, before the agents are listed -/
  | committed (change : Change) (row : BlockRow)
  | push (change : Change) (row : BlockRow) (rest : List Conn)
  /-- `none`: every connected agent -/
  | reconcile (serverId : Option ℕ)
  | fanOut (rest : List ℕ)
  | resetSent (serverId : ℕ) (rest : List ℕ)
  | allowed (serverId : ℕ) (rest : List ℕ)
  | loaded (serverId : ℕ) (entries : List BlockEntry) (rest : List ℕ)
deriving DecidableEq, Repr

structure Net where
  rows : BlockList
  /-- every block there ever was -/
  issued : List BlockRow
  conns : Table Conn.serverId
  /-- reported capabilities -/
  caps : ℕ → Option ℕ
  /-- `servers.capabilities` -/
  mirror : ℕ → ℕ
  lock : Bool
  tasks : ℕ → Task
  channels : ℕ → List ServerMessage
  agents : ℕ → Agent

def Net.goto (s : Net) (t : ℕ) (task : Task) : Net := { s with tasks := Function.update s.tasks t task }

/-- to the sender of a connected agent -/
def Net.send (s : Net) (serverId : ℕ) (m : ServerMessage) : Net :=
  match s.conns.get serverId with
  | none => s
  | some _ => { s with channels := Function.update s.channels serverId (s.channels serverId ++ [m]) }

/-! ## Tasks -/

/-- `push_add_to_covered_agents`, `push_remove_to_covered_agents`: which agents get the message -/
def Net.receives (s : Net) (row : BlockRow) (conn : Conn) : Bool :=
  row.covers conn.serverId && hasCapability ((s.caps conn.serverId).getD 0) capFirewallBlock &&
    decide (firewallMinProtocol ≤ conn.protocolVersion)

def Net.pushTo (s : Net) (change : Change) (row : BlockRow) (conn : Conn) : Net :=
  if s.receives row conn then s.send conn.serverId (change.message row) else s

/-- the INSERT; a taken target is a conflict -/
def Net.insertBlock (s : Net) (t : ℕ) (row : BlockRow) : Net :=
  if s.rows.rows.any fun r => r.target == row.target then s.goto t .idle
  else
    match s.rows.insert row with
    | none => s.goto t .idle
    | some rows => { s with rows := rows, issued := row :: s.issued }.goto t (.committed .created row)

/-- one more server of a fan-out -/
def Net.sendReset (s : Net) (t : ℕ) (serverId : ℕ) (rest : List ℕ) : Net :=
  if ((s.conns.get serverId).map Conn.protocolVersion).getD 0 < firewallMinProtocol then s.goto t (.fanOut rest)
  else (s.send serverId .blocklistReset).goto t (.resetSent serverId rest)

/-- `capabilities_for_agent`: the reported ones; before a report, a statement reads the mirror -/
def Net.capabilitiesForAgent (s : Net) (serverId : ℕ) (ok : Bool) : Option ℕ :=
  match s.caps serverId with
  | some caps => some caps
  | none => if ok then some (s.mirror serverId) else none

def Net.checkCapability (s : Net) (t : ℕ) (serverId : ℕ) (rest : List ℕ) (ok : Bool) : Net :=
  if (s.capabilitiesForAgent serverId ok).any fun caps => hasCapability caps capFirewallBlock then
    s.goto t (.allowed serverId rest)
  else s.goto t (.fanOut rest)

/-- a task's next step; `ok`: its statement, if it runs one, succeeds; `id`: the id that it draws, if it draws one -/
def Net.advance (s : Net) (t : ℕ) (ok : Bool) (id : ℕ) : Net :=
  match s.tasks t with
  | .idle => s
  | .lookup req _ =>
    -- a row with the target ends the call, whether it covers the server or not
    if ok ∧ ¬ s.rows.rows.any (fun r => r.target == req.target) then s.goto t (.insert req) else s.goto t .idle
  | .insert req =>
    if s.issued.any fun r => r.id == id then s
    else if ok then s.insertBlock t (req.row id)
    else s.goto t .idle
  | .find id =>
    match s.rows.get id with
    | some row => if ok then s.goto t (.found row) else s.goto t .idle
    | none => s.goto t .idle
  | .found row =>
    if ok then { s with rows := s.rows.delete fun r => r.id == row.id }.goto t (.committed .deleted row)
    else s.goto t .idle
  | .committed change row => s.goto t (.push change row s.conns.rows)
  | .push _ _ [] => s.goto t .idle
  | .push change row (conn :: rest) => (s.pushTo change row conn).goto t (.push change row rest)
  | .reconcile serverId =>
    if s.lock then s
    else { s with lock := true }.goto t (.fanOut (serverId.elim (s.conns.rows.map Conn.serverId) fun n => [n]))
  | .fanOut [] => { s with lock := false }.goto t .idle
  | .fanOut (serverId :: rest) => s.sendReset t serverId rest
  | .resetSent serverId rest => s.checkCapability t serverId rest ok
  | .allowed serverId rest =>
    if ok then s.goto t (.loaded serverId (listForServer s.rows serverId) rest) else s.goto t (.fanOut rest)
  | .loaded serverId entries rest => (s.send serverId (.blocklistSync entries)).goto t (.fanOut rest)

/-! ## The machine -/

/-- calls that start -/
inductive Call where
  /-- `create_block`, its target canonical and not protected -/
  | createBlock (req : BlockReq)
  | autoBlock (req : BlockReq) (serverId : ℕ)
  | deleteBlock (id : ℕ)
  | reconcileAgent (serverId : ℕ)
  | reconcileConnected
deriving DecidableEq, Repr

def Call.task : Call → Task
  | .createBlock req => .insert req
  | .autoBlock req serverId => .lookup req serverId
  | .deleteBlock id => .find id
  | .reconcileAgent serverId => .reconcile (some serverId)
  | .reconcileConnected => .reconcile none

inductive Op where
  | start (t : ℕ) (call : Call)
  | advance (t : ℕ) (ok : Bool) (id : ℕ)
  /-- an agent handles the first message of its channel -/
  | deliver (serverId : ℕ) (faults : Faults) (incomingOrder orphanOrder : Order)
  | connect (serverId : ℕ) (protocolVersion : ℕ)
  | disconnect (serverId : ℕ)
  /-- what a server knows of an agent's capabilities -/
  | capabilities (serverId : ℕ) (caps : Option ℕ) (mirror : ℕ)
  | externalIp (serverId : ℕ) (ip : Option IpAddr)

def setConn (conns : Table Conn.serverId) (conn : Conn) : Table Conn.serverId := (conns.insert conn).getD (conns.set conn)

section Step

variable (T : IpText)

def step (s : Net) : Op → Net
  | .start t call => if s.tasks t = .idle then s.goto t call.task else s
  | .advance t ok id => s.advance t ok id
  | .deliver serverId faults incomingOrder orphanOrder =>
    match s.channels serverId with
    | [] => s
    | m :: rest =>
      { s with
        channels := Function.update s.channels serverId rest
        agents := Function.update s.agents serverId (handle T faults incomingOrder orphanOrder (s.agents serverId) m).2 }
  | .connect serverId protocolVersion =>
    { s with
      conns := setConn s.conns ⟨serverId, protocolVersion⟩
      channels := Function.update s.channels serverId [] }
  | .disconnect serverId =>
    { s with
      conns := s.conns.delete fun c => c.serverId == serverId
      channels := Function.update s.channels serverId [] }
  | .capabilities serverId caps mirror =>
    { s with caps := Function.update s.caps serverId caps, mirror := Function.update s.mirror serverId mirror }
  | .externalIp serverId ip => { s with agents := Function.update s.agents serverId (setExternalIp (s.agents serverId) ip) }

end Step

end ServerBee.Firewall
