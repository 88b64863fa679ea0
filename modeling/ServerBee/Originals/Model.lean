/-
Admission of security originals (`retain_agent_event`, `record_event`, `recover_pending` and what they call in
`service/security.rs`; `delete_event` of `router/api/security.rs`).

An original waits in memory until its raw row is written, and then in the table until its rule decision is committed. A pass
writes retained originals, scans for the oldest one of each key and admits the ones that it picked. The steps of passes meet
agents' events, revocations, deletions and restarts in any order, and any transaction may fail. An admission holds SQLite's
writer lock from its checks to its commit, and only memory changes in between. What the rules decide is in `Alerts/Rules`; the
push intents, which have a scan of their own, and the broadcasts are left out.
-/
import Mathlib.Data.Int.Order.Basic
import Mathlib.Data.Prod.Lex
import Mathlib.Data.String.Basic
import ServerBee.Lib.Keyset

namespace ServerBee.Originals

open ServerBee.Lib

/-- the columns that admission reads -/
structure Original where
  id : String
  serverId : String
  eventType : String
  sourceIp : String
  createdAt : ℤ
  /-- of the token that the agent showed; none on the trusted path -/
  authorityFingerprint : Option String
deriving DecidableEq, Repr

abbrev Position := ℤ ×ₗ String

def Original.position (o : Original) : Position := toLex (o.createdAt, o.id)

/-- a rule's state is kept for a server, a type and an address -/
def sameKey (o o' : Original) : Bool :=
  o.serverId == o'.serverId && o.eventType == o'.eventType && o.sourceIp == o'.sourceIp

def earlier (o o' : Original) : Bool := sameKey o o' && decide (o.position < o'.position)

/-- a row with an admission payload -/
structure Row where
  original : Original
  maintenanceAtAdmission : Option Bool
deriving DecidableEq, Repr

/-- the end of an original -/
inductive Fate where
  /-- its rule decision is committed, when this was the fingerprint of the server's token -/
  | decided (authority : Option String)
  | cancelled
  | deleted
  /-- with the process, before its row was written -/
  | lost
deriving DecidableEq, Repr

structure St where
  retained : List Original
  /-- rows with an admission payload -/
  pending : List Row
  /-- the ids of the rows without one -/
  settled : List String
  recoveryCursor : Option Position
  /-- the picked rows that the pass has still to admit -/
  batch : List String
  /-- the admission between its checks and its commit -/
  admitting : Option String
  /-- the fingerprint of the token hash in the server's row -/
  authority : String → Option String
  /-- the effective `CAP_SECURITY_EVENTS` -/
  capable : String → Bool
  /-- every original so far -/
  accepted : List Original
  fates : List (Fate × Original)
  /-- of this process: the heads at each scan and the ones it picked -/
  passes : List (List Original × List Original)
  /-- of this process: the rows that it tried to admit -/
  attempted : List String

inductive Op where
  | retain (original : Original)
  | persist (id : String) (commits : Bool) (maintenance : Option Bool)
  | record (original : Original) (commits : Bool) (maintenance : Option Bool)
  | scan
  /-- an admission up to its rules -/
  | check (commits maintenance : Bool)
  /-- and its end; it fails where a rule, a payload or the database does -/
  | decide (commits : Bool)
  | delete (id : String)
  | authorize (server : String) (authority : Option String)
  | enable (server : String) (capable : Bool)
  | restart

/-- heads that one scan takes -/
def scanLimit : ℕ := 64

namespace St

variable (s : St)

def originals : List Original := s.pending.map Row.original

def authorityValid (o : Original) : Bool :=
  o.authorityFingerprint.all fun expected => s.authority o.serverId == some expected && s.capable o.serverId

/-- ids are drawn once -/
def unused (id : String) : Bool := s.accepted.all fun o => o.id != id

/-- another transaction holds the writer lock -/
def locked : Bool := s.admitting.isSome

/-- the agent's event is taken over in memory -/
def retainAgentEvent (o : Original) : St :=
  if o.authorityFingerprint.isSome && s.unused o.id then
    { s with retained := s.retained ++ [o], accepted := s.accepted ++ [o] }
  else s

/-- one attempt for a retained original; a failure goes to the end of the queue -/
def persistOriginal (o : Original) (commits : Bool) (maintenance : Option Bool) : St :=
  let rest := s.retained.filter fun other => other.id != o.id
  if !commits then { s with retained := rest ++ [o] }
  else if !s.authorityValid o then { s with retained := rest, fates := s.fates ++ [(.cancelled, o)] }
  else if s.pending.any (·.original.id == o.id) || s.settled.contains o.id then { s with retained := rest }
  else { s with retained := rest, pending := s.pending ++ [⟨o, maintenance⟩] }

/-- the trusted path writes the row itself -/
def recordEvent (o : Original) (commits : Bool) (maintenance : Option Bool) : St :=
  if commits && s.unused o.id then
    { s with
      pending := s.pending ++ [⟨{ o with authorityFingerprint := none }, maintenance⟩]
      accepted := s.accepted ++ [{ o with authorityFingerprint := none }] }
  else s

/-- the oldest durable original of each key -/
def pendingHeads : List Original := s.originals.filter fun o => !s.originals.any fun other => earlier other o

def scan : St :=
  let picked := Keyset.turn Original.position s.pendingHeads s.recoveryCursor scanLimit
  { s with
    recoveryCursor := picked.getLast?.map Original.position
    batch := picked.map Original.id
    passes := s.passes ++ [(s.pendingHeads, picked)] }

/-- the admission payload is cleared -/
def settle (o : Original) (fate : Fate) : St :=
  { s with
    pending := s.pending.filter fun row => row.original.id != o.id
    settled := s.settled ++ [o.id]
    fates := s.fates ++ [(fate, o)] }

def hasEarlierOriginal (o : Original) : Bool :=
  s.retained.any (fun other => earlier other o) || s.originals.any fun other => earlier other o

def setMaintenance (id : String) (decision : Bool) : St :=
  { s with pending := s.pending.map fun row =>
      if row.original.id = id then { row with maintenanceAtAdmission := some decision } else row }

/-- `admit_original_event` for the next row of the batch, up to its rules -/
def check (id : String) (rest : List String) (commits maintenance : Bool) : St :=
  let s := { s with attempted := s.attempted ++ [id] }
  let done := { s with batch := rest }
  match s.pending.find? (·.original.id == id) with
  | none => done
  | some row =>
    if !s.authorityValid row.original then if commits then done.settle row.original .cancelled else done
    else if s.hasEarlierOriginal row.original then done
    else match row.maintenanceAtAdmission with
      -- the historical decision is written in a transaction of its own
      | none => if commits then done.setMaintenance id maintenance else done
      | some _ => { s with admitting := some id }

def decide (id : String) (commits : Bool) : St :=
  let done := { s with batch := s.batch.tail, admitting := none }
  match s.pending.find? (·.original.id == id) with
  | none => done
  | some row =>
    if commits then done.settle row.original (.decided (s.authority row.original.serverId)) else done

def deleteEvent (id : String) : St :=
  match s.pending.find? (·.original.id == id) with
  | none => { s with settled := s.settled.filter (· != id) }
  | some row =>
    { s with
      pending := s.pending.filter fun row => row.original.id != id
      fates := s.fates ++ [(.deleted, row.original)] }

def restart : St :=
  { s with
    retained := []
    recoveryCursor := none
    batch := []
    admitting := none
    fates := s.fates ++ s.retained.map fun o => (.lost, o)
    passes := []
    attempted := [] }

end St

/-- what writes the database waits for the admission that holds the lock -/
def step (s : St) : Op → St
  | .retain o => s.retainAgentEvent o
  | .persist id commits maintenance =>
    if s.locked then s
    else (s.retained.find? (·.id == id)).elim s fun o => s.persistOriginal o commits maintenance
  | .record o commits maintenance => if s.locked then s else s.recordEvent o commits maintenance
  | .scan => if s.locked || !s.batch.isEmpty then s else s.scan
  | .check commits maintenance =>
    if s.locked then s
    else match s.batch with
      | [] => s
      | id :: rest => s.check id rest commits maintenance
  | .decide commits => s.admitting.elim s fun id => s.decide id commits
  | .delete id => if s.locked then s else s.deleteEvent id
  | .authorize server authority =>
    if s.locked then s else { s with authority := fun other => if other = server then authority else s.authority other }
  | .enable server capable => { s with capable := fun other => if other = server then capable else s.capable other }
  | .restart => s.restart

def start (authority : String → Option String) (capable : String → Bool) : St :=
  ⟨[], [], [], none, [], none, authority, capable, [], [], [], []⟩

end ServerBee.Originals
