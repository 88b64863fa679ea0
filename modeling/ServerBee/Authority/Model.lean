/-
The tables and the typed inputs of the Agent Authority module (`service/agent_authority/model.rs`,
`entity/{server,enrollment_offer,agent_authority_event}.rs`, migration 75).

Identifiers are UUIDs: compared, never inspected, so ℕ, and `nextId` supplies the next unused one (`Uuid::new_v4` never
repeats). Closed sets of column texts (outcome, transition, mode, actor kind, authority) are enumerations. A row keeps
the columns that the module reads or writes. Instants are ℤ.

The statements below are the ones the module issues, with what SQLite enforces on them: primary keys, the foreign key
`target_server_id → servers ON DELETE CASCADE`, the CHECK constraints and the partial unique index
`idx_enrollment_offers_outstanding_per_server`. A refused statement is `none`.
-/
import ServerBee.Lib.Txn

namespace ServerBee.Authority

/-- the argon2 crate: `hashPassword salt password`, and `verifyPassword password hash` (`none`: not a password hash) -/
structure Argon2 where
  hashPassword : String → String → Option String
  verifyPassword : String → String → Option Bool

/-! ## Typed inputs -/

def isAscii (value : String) : Bool := value.toList.all fun c => c.toNat < 128

/-- `text[..8]` of an ASCII text -/
def textHead (text : String) : String := String.ofList (text.toList.take 8)

structure EnrollmentCode where
  value : String
  valid : 16 ≤ value.toList.length ∧ value.toList.length ≤ 512 ∧ isAscii value = true
deriving DecidableEq

def EnrollmentCode.parse (value : String) : Except String EnrollmentCode :=
  if h : 16 ≤ value.toList.length ∧ value.toList.length ≤ 512 ∧ isAscii value = true then .ok ⟨value, h⟩
  else .error "enrollment code must be 16-512 ASCII characters"

structure ProposedRunToken where
  value : String
  valid : 32 ≤ value.toList.length ∧ value.toList.length ≤ 512 ∧ isAscii value = true ∧
    value.toList.any Char.isWhitespace = false
deriving DecidableEq

structure PresentedRunToken where
  value : String
  valid : 8 ≤ value.toList.length ∧ value.toList.length ≤ 512 ∧ isAscii value = true
deriving DecidableEq

/-- seconds, from one second to one day -/
structure OfferTtl where
  value : ℤ
  valid : 1 ≤ value ∧ value ≤ 86400
deriving DecidableEq

inductive Actor where
  | user (id : String)
  | system
  | agent
deriving DecidableEq, Repr

inductive ActorKind where
  | user
  | system
  | agent
deriving DecidableEq, Repr

def ActorKind.asStr : ActorKind → String
  | .user => "user"
  | .system => "system"
  | .agent => "agent"

def Actor.kind : Actor → ActorKind
  | .user _ => .user
  | .system => .system
  | .agent => .agent

def Actor.id : Actor → Option String
  | .user id => some id
  | .system => none
  | .agent => none

def Actor.offerCreator (a : Actor) : String := a.id.getD a.kind.asStr

inductive AuthorityStatus where
  | claimed
  | unclaimed
deriving DecidableEq, Repr

inductive OfferOutcome where
  | consumed
  | revoked
  | replaced
  | expired
deriving DecidableEq, Repr

inductive ReenrollmentMode where
  | graceful
  | emergency
deriving DecidableEq, Repr

inductive AuthorityTransition where
  | initialOfferIssued
  | offerIssued
  | reenrollmentStarted
  | offerConsumed
  | offerRevoked
  | offerReplaced
  | offerExpired
  | authorityRevoked
  | serverDeleted
deriving DecidableEq, Repr

/-- the transition that `terminalize_offer` records for an outcome -/
def OfferOutcome.transition : OfferOutcome → AuthorityTransition
  | .consumed => .offerConsumed
  | .revoked => .offerRevoked
  | .replaced => .offerReplaced
  | .expired => .offerExpired

/-! ## Rows -/

structure Server where
  id : ℕ
  tokenHash : Option String
  tokenPrefix : Option String
  name : String
  capabilities : ℤ
  lastRemoteAddr : Option String
  updatedAt : ℤ
deriving DecidableEq, Repr

structure EnrollmentOffer where
  id : ℕ
  codeHash : String
  codePrefix : String
  targetServerId : ℕ
  createdBy : String
  expiresAt : ℤ
  outcome : Option OfferOutcome
  terminalAt : Option ℤ
  successorOfferId : Option ℕ
  createdAt : ℤ
deriving DecidableEq, Repr

structure AuthorityEvent where
  id : ℕ
  serverId : ℕ
  serverName : String
  actorKind : ActorKind
  actorId : Option String
  requestSource : String
  offerId : Option ℕ
  transition : AuthorityTransition
  mode : Option ReenrollmentMode
  offerOutcome : Option OfferOutcome
  authorityBefore : AuthorityStatus
  authorityAfter : AuthorityStatus
  createdAt : ℤ
deriving DecidableEq, Repr

/-- the three tables; `events` in insertion order -/
structure Db where
  servers : List Server
  offers : List EnrollmentOffer
  events : List AuthorityEvent
  nextId : ℕ
deriving DecidableEq, Repr

def Db.empty : Db := ⟨[], [], [], 0⟩

def EnrollmentOffer.isOpen (o : EnrollmentOffer) : Bool := o.outcome.isNone

/-- the row with its terminal columns set -/
def EnrollmentOffer.close (outcome : OfferOutcome) (terminalAt : ℤ) (successor : Option ℕ)
    (o : EnrollmentOffer) : EnrollmentOffer :=
  { o with outcome := some outcome, terminalAt := some terminalAt, successorOfferId := successor }

/-- the two table CHECKs on `outcome`, `terminal_at` and `successor_offer_id` -/
def EnrollmentOffer.check (o : EnrollmentOffer) : Bool :=
  match o.outcome with
  | none => o.terminalAt.isNone && o.successorOfferId.isNone
  | some .replaced => o.terminalAt.isSome && o.successorOfferId.isSome
  | some _ => o.terminalAt.isSome && o.successorOfferId.isNone

def authorityStatus (server : Server) : AuthorityStatus :=
  if server.tokenHash.isSome then .claimed else .unclaimed

/-! ## Statements -/

def Db.findServer (id : ℕ) (db : Db) : Option Server := db.servers.find? fun s => s.id == id

def Db.findOffer (id : ℕ) (db : Db) : Option EnrollmentOffer := db.offers.find? fun o => o.id == id

/-- the partial unique index: no other open offer for this server -/
def Db.outstandingFree (db : Db) (o : EnrollmentOffer) : Bool :=
  !o.isOpen || db.offers.all fun p => p.id == o.id || !(p.isOpen && p.targetServerId == o.targetServerId)

def Db.insertServer (server : Server) (db : Db) : Option (Unit × Db) :=
  if (db.findServer server.id).isSome then none else some ((), { db with servers := db.servers ++ [server] })

def Db.insertOffer (offer : EnrollmentOffer) (db : Db) : Option (EnrollmentOffer × Db) :=
  if (db.findOffer offer.id).isNone && (db.findServer offer.targetServerId).isSome && offer.check &&
      db.outstandingFree offer then
    some (offer, { db with offers := db.offers ++ [offer] })
  else none

def Db.insertEvent (event : AuthorityEvent) (db : Db) : Option (Unit × Db) :=
  if db.events.any fun e => e.id == event.id then none
  else some ((), { db with events := db.events ++ [event] })

/-- UPDATE servers .. WHERE id = ?; SeaORM reports a missing row as an error -/
def Db.updateServer (id : ℕ) (set : Server → Server) (db : Db) : Option (Unit × Db) :=
  if (db.findServer id).isNone then none
  else some ((), { db with servers := db.servers.map fun s => if s.id == id then set s else s })

/-- UPDATE enrollment_offers SET outcome, terminal_at, successor_offer_id WHERE id = ? -/
def Db.updateOffer (id : ℕ) (outcome : OfferOutcome) (terminalAt : ℤ) (successor : Option ℕ) (db : Db) :
    Option (Unit × Db) :=
  match db.findOffer id with
  | none => none
  | some o =>
    if (o.close outcome terminalAt successor).check then
      some ((), { db with
        offers := db.offers.map fun p => if p.id == id then p.close outcome terminalAt successor else p })
    else none

/-- DELETE FROM servers WHERE id IN ids; the offers go with their server -/
def Db.deleteServers (ids : List ℕ) (db : Db) : Option (Unit × Db) :=
  some ((), { db with
    servers := db.servers.filter fun s => !ids.contains s.id
    offers := db.offers.filter fun o => !ids.contains o.targetServerId })

/-! ## Errors -/

inductive AppError where
  | db
  | internal (message : String)
deriving DecidableEq, Repr

/-- `#[from] AppError` -/
class FromAppError (ε : Type) where
  store : AppError → ε

instance : FromAppError AppError := ⟨id⟩

structure OutstandingOffer where
  id : ℕ
  codePrefix : String
  expiresAt : ℤ
  createdAt : ℤ
deriving DecidableEq, Repr

def toOutstanding (o : EnrollmentOffer) : OutstandingOffer := ⟨o.id, o.codePrefix, o.expiresAt, o.createdAt⟩

inductive ClaimError where
  | rejected
  | store (e : AppError)
deriving DecidableEq, Repr

inductive IssueOfferError where
  | notFound
  | alreadyClaimed
  | outstandingExists (current : OutstandingOffer)
  | store (e : AppError)
deriving DecidableEq, Repr

inductive ReenrollmentError where
  | notFound
  | unclaimed
  | outstandingExists (current : OutstandingOffer)
  | store (e : AppError)
deriving DecidableEq, Repr

inductive ReplaceOfferError where
  | serverNotFound
  | offerNotFound
  | notOutstanding (outcome : OfferOutcome) (current : Option OutstandingOffer)
  | stale (current : Option OutstandingOffer)
  | store (e : AppError)
deriving DecidableEq, Repr

inductive RevokeOfferError where
  | serverNotFound
  | offerNotFound
  | terminal (outcome : OfferOutcome)
  | store (e : AppError)
deriving DecidableEq, Repr

inductive RevokeAuthorityError where
  | notFound
  | store (e : AppError)
deriving DecidableEq, Repr

instance : FromAppError ClaimError := ⟨.store⟩
instance : FromAppError IssueOfferError := ⟨.store⟩
instance : FromAppError ReenrollmentError := ⟨.store⟩
instance : FromAppError ReplaceOfferError := ⟨.store⟩
instance : FromAppError RevokeOfferError := ⟨.store⟩
instance : FromAppError RevokeAuthorityError := ⟨.store⟩

end ServerBee.Authority
