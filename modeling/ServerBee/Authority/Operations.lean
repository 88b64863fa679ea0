/-
The operations of `AgentAuthority` (`service/agent_authority/mod.rs`), statement by statement.

Each operation is a `Txn` program: every database statement may fail, every `Utc::now()` is its own clock read, and
random values are drawn. What an operation does to the `AgentManager` is the side effect `removeConnection`, emitted
where the source calls it; browser broadcasts are left out. `onboard` is the part of server onboarding that touches
these tables: the server row and its initial offer.
-/
import ServerBee.Authority.Model

namespace ServerBee.Authority

open ServerBee.Lib

/-- the runtime effect of an operation: `AgentManager::remove_connection` -/
inductive Effect where
  | removeConnection (serverId : ℕ)
deriving DecidableEq, Repr

abbrev Action (ε α : Type) := Txn Db Effect ε α

section Helpers

variable {ε : Type} [FromAppError ε]

def statement {α : Type} (f : Db → Option (α × Db)) : Action ε α := Txn.stmt (FromAppError.store .db) f

def select {α : Type} (f : Db → α) : Action ε α := Txn.query (FromAppError.store .db) f

def commit : Action ε Unit := Txn.commit (FromAppError.store .db)

/-- `Uuid::new_v4` -/
def newId : Action ε ℕ := Txn.modifyGet fun db => (db.nextId, { db with nextId := db.nextId + 1 })

/-- BEGIN, then UPDATE servers SET id=id WHERE id=? to reserve the writer -/
def beginWrite (_serverId : ℕ) : Action ε Unit := do
  Txn.begin (FromAppError.store .db)
  statement fun db => some ((), db)

structure EventInput where
  server : Server
  actor : Actor
  source : String
  offerId : Option ℕ
  transition : AuthorityTransition
  mode : Option ReenrollmentMode
  offerOutcome : Option OfferOutcome
  authorityBefore : AuthorityStatus
  authorityAfter : AuthorityStatus

def EventInput.row (input : EventInput) (id : ℕ) (createdAt : ℤ) : AuthorityEvent where
  id := id
  serverId := input.server.id
  serverName := input.server.name
  actorKind := input.actor.kind
  actorId := input.actor.id
  requestSource := input.source
  offerId := input.offerId
  transition := input.transition
  mode := input.mode
  offerOutcome := input.offerOutcome
  authorityBefore := input.authorityBefore
  authorityAfter := input.authorityAfter
  createdAt := createdAt

def insertEvent (input : EventInput) : Action ε Unit := do
  let id ← newId
  let createdAt ← Txn.now
  statement (Db.insertEvent (input.row id createdAt))

structure PreparedOffer where
  model : EnrollmentOffer
  code : EnrollmentCode

structure IssuedOffer where
  id : ℕ
  code : EnrollmentCode
  codePrefix : String
  expiresAt : ℤ
  createdAt : ℤ
deriving DecidableEq

variable (A : Argon2)

def hashPassword (password : String) : Action ε String := do
  let salt ← Txn.draw
  Txn.orThrow (FromAppError.store (.internal "Password hashing failed")) (A.hashPassword salt password)

def verifyPassword (password hash : String) : Action ε Bool :=
  Txn.orThrow (FromAppError.store (.internal "Invalid password hash")) (A.verifyPassword password hash)

def prepareOffer (serverId : ℕ) (actor : Actor) (ttl : OfferTtl) : Action ε PreparedOffer := do
  let now ← Txn.now
  let plaintext ← Txn.draw
  let code ← Txn.lift (fun e => FromAppError.store (.internal ("generated invalid enrollment code: " ++ e)))
    (EnrollmentCode.parse plaintext)
  let codeHash ← hashPassword A plaintext
  let id ← newId
  return {
    model := {
      id := id
      codeHash := codeHash
      codePrefix := textHead plaintext
      targetServerId := serverId
      createdBy := actor.offerCreator
      expiresAt := now + ttl.value
      outcome := none
      terminalAt := none
      successorOfferId := none
      createdAt := now }
    code := code }

def insertPreparedOffer (prepared : PreparedOffer) : Action ε IssuedOffer := do
  let row ← statement (Db.insertOffer prepared.model)
  return ⟨row.id, prepared.code, row.codePrefix, row.expiresAt, row.createdAt⟩

def mintOffer (serverId : ℕ) (actor : Actor) (ttl : OfferTtl) : Action ε IssuedOffer := do
  let prepared ← prepareOffer A serverId actor ttl
  insertPreparedOffer prepared

/-- the first candidate whose stored hash verifies; a malformed hash ends the search with an error -/
def firstVerified (code : String) : List EnrollmentOffer → Action ε (Option EnrollmentOffer)
  | [] => pure none
  | candidate :: rest => do
    let ok ← verifyPassword A code candidate.codeHash
    if ok then pure (some candidate) else firstVerified code rest

/-- reads outside the transaction -/
def findOfferForCode (code : EnrollmentCode) : Action ε (Option EnrollmentOffer) := do
  let candidates ← Txn.queryCommitted (FromAppError.store .db) fun db : Db =>
    db.offers.filter fun o => o.codePrefix == textHead code.value && o.isOpen
  firstVerified A code.value candidates

def findOutstanding (serverId : ℕ) (now : ℤ) : Action ε (Option EnrollmentOffer) :=
  select fun db => db.offers.find? fun o => o.targetServerId == serverId && o.isOpen && decide (now < o.expiresAt)

def findOpenOffer (serverId : ℕ) : Action ε (Option EnrollmentOffer) :=
  select fun db => db.offers.find? fun o => o.targetServerId == serverId && o.isOpen

def terminalizeOffer (offer : EnrollmentOffer) (outcome : OfferOutcome) (successor : Option ℕ) (server : Server)
    (actor : Actor) (source : String) (authorityBefore authorityAfter : AuthorityStatus) : Action ε Unit := do
  let now ← Txn.now
  statement (Db.updateOffer offer.id outcome now successor)
  insertEvent ⟨server, actor, source, some offer.id, outcome.transition, none, some outcome, authorityBefore,
    authorityAfter⟩

def expireElapsedOutstanding (server : Server) (actor : Actor) (source : String) : Action ε Unit := do
  match ← findOpenOffer server.id with
  | none => pure ()
  | some offer =>
    let now ← Txn.now
    if now < offer.expiresAt then pure ()
    else
      let status := authorityStatus server
      terminalizeOffer offer .expired none server actor source status status

/-- SET token_hash = NULL, token_prefix = NULL, updated_at = now -/
def clearToken (serverId : ℕ) : Action ε Unit := do
  let now ← Txn.now
  statement (Db.updateServer serverId fun s => { s with tokenHash := none, tokenPrefix := none, updatedAt := now })

def issueInitialOfferTx (server : Server) (actor : Actor) (source : String) (ttl : OfferTtl) :
    Action ε IssuedOffer := do
  let issued ← mintOffer A server.id actor ttl
  insertEvent ⟨server, actor, source, some issued.id, .initialOfferIssued, none, none, .unclaimed, .unclaimed⟩
  return issued

def recordServerDeletedTx (server : Server) (actor : Actor) (source : String) : Action ε Unit := do
  let status := authorityStatus server
  insertEvent ⟨server, actor, source, none, .serverDeleted, none, none, status, .unclaimed⟩

end Helpers

variable (A : Argon2)

structure OnboardServer where
  name : String
  capabilities : ℤ
  actor : Actor
  source : String
  ttl : OfferTtl

def onboard (input : OnboardServer) : Action AppError (ℕ × IssuedOffer) := do
  Txn.begin .db
  let id ← newId
  let now ← Txn.now
  let row : Server := ⟨id, none, none, input.name, input.capabilities, none, now⟩
  statement (Db.insertServer row)
  let enrollment ← issueInitialOfferTx A row input.actor input.source input.ttl
  commit
  return (id, enrollment)

structure IssueOfferForUnclaimed where
  serverId : ℕ
  actor : Actor
  source : String
  ttl : OfferTtl

def issueOfferForUnclaimed (input : IssueOfferForUnclaimed) : Action IssueOfferError IssuedOffer := do
  beginWrite input.serverId
  let found ← select (Db.findServer input.serverId)
  let server ← Txn.orThrow .notFound found
  if authorityStatus server = .claimed then Txn.throw .alreadyClaimed
  else
    expireElapsedOutstanding server input.actor input.source
    let now ← Txn.now
    match ← findOutstanding server.id now with
    | some current => Txn.throw (.outstandingExists (toOutstanding current))
    | none =>
      let issued ← mintOffer A server.id input.actor input.ttl
      insertEvent ⟨server, input.actor, input.source, some issued.id, .offerIssued, none, none, .unclaimed, .unclaimed⟩
      commit
      return issued

structure ClaimAgent where
  code : EnrollmentCode
  proposedRunToken : ProposedRunToken
  source : String
  remoteAddr : Option String

structure ClaimReceipt where
  serverId : ℕ
deriving DecidableEq

/-- the part of `claim` that runs under the lifecycle lock of the candidate's server. The deadline is compared with one
clock read; `terminal_at` is the next one -/
def claimCandidate (input : ClaimAgent) (candidate : EnrollmentOffer) (tokenHash : String) :
    Action ClaimError ClaimReceipt := do
  let tokenPrefix := textHead input.proposedRunToken.value
  beginWrite candidate.targetServerId
  match ← select (Db.findOffer candidate.id) with
  | none => Txn.throw .rejected
  | some offer =>
    if offer.outcome.isSome then Txn.throw .rejected
    else
      let verified ← verifyPassword A input.code.value offer.codeHash
      if verified = false then Txn.throw .rejected
      else
        let found ← select (Db.findServer offer.targetServerId)
        let server ← Txn.orThrow (.store (.internal "enrollment offer target vanished")) found
        let before := authorityStatus server
        let deadlineRead ← Txn.now
        if offer.expiresAt ≤ deadlineRead then
          terminalizeOffer offer .expired none server .agent input.source before before
          commit
          Txn.throw .rejected
        else
          Txn.emit (.removeConnection server.id)
          let now ← Txn.now
          statement (Db.updateOffer offer.id .consumed now none)
          statement (Db.updateServer server.id fun s =>
            { s with
              tokenHash := some tokenHash
              tokenPrefix := some tokenPrefix
              lastRemoteAddr := input.remoteAddr
              updatedAt := now })
          insertEvent ⟨server, .agent, input.source, some offer.id, .offerConsumed, none, some .consumed, before,
            .claimed⟩
          commit
          return ⟨server.id⟩

def claim (input : ClaimAgent) : Action ClaimError ClaimReceipt := do
  match ← findOfferForCode A input.code with
  | none => Txn.throw .rejected
  | some candidate =>
    let tokenHash ← hashPassword A input.proposedRunToken.value
    claimCandidate A input candidate tokenHash

structure BeginReenrollment where
  serverId : ℕ
  mode : ReenrollmentMode
  actor : Actor
  source : String
  ttl : OfferTtl

def beginReenrollment (input : BeginReenrollment) : Action ReenrollmentError IssuedOffer := do
  beginWrite input.serverId
  let found ← select (Db.findServer input.serverId)
  let server ← Txn.orThrow .notFound found
  if authorityStatus server = .unclaimed then Txn.throw .unclaimed
  else
    expireElapsedOutstanding server input.actor input.source
    let now ← Txn.now
    match ← findOutstanding server.id now with
    | some current => Txn.throw (.outstandingExists (toOutstanding current))
    | none =>
      let authorityAfter ← match input.mode with
        | .graceful => pure AuthorityStatus.claimed
        | .emergency => do
          Txn.emit (.removeConnection server.id)
          clearToken server.id
          pure AuthorityStatus.unclaimed
      let issued ← mintOffer A server.id input.actor input.ttl
      insertEvent ⟨server, input.actor, input.source, some issued.id, .reenrollmentStarted, some input.mode, none,
        .claimed, authorityAfter⟩
      commit
      return issued

structure ReplaceOffer where
  serverId : ℕ
  offerId : ℕ
  actor : Actor
  source : String
  ttl : OfferTtl

def replaceOffer (input : ReplaceOffer) : Action ReplaceOfferError IssuedOffer := do
  beginWrite input.serverId
  let found ← select (Db.findServer input.serverId)
  let server ← Txn.orThrow .serverNotFound found
  let found ← select (Db.findOffer input.offerId)
  let offer ← Txn.orThrow .offerNotFound (found.filter fun o => o.targetServerId == server.id)
  match offer.outcome with
  | some outcome =>
    let now ← Txn.now
    let current ← findOutstanding server.id now
    Txn.throw (.notOutstanding outcome (current.map toOutstanding))
  | none =>
    let deadlineRead ← Txn.now
    if offer.expiresAt ≤ deadlineRead then
      let before := authorityStatus server
      terminalizeOffer offer .expired none server input.actor input.source before before
      commit
      Txn.throw (.notOutstanding .expired none)
    else
      let now ← Txn.now
      let current ← findOutstanding server.id now
      if current.map (·.id) ≠ some input.offerId then Txn.throw (.stale (current.map toOutstanding))
      else
        let successor ← prepareOffer A server.id input.actor input.ttl
        let now ← Txn.now
        statement (Db.updateOffer offer.id .replaced now (some successor.model.id))
        let issued ← insertPreparedOffer successor
        let status := authorityStatus server
        insertEvent ⟨server, input.actor, input.source, some offer.id, .offerReplaced, none, some .replaced, status,
          status⟩
        commit
        return issued

structure RevokeOffer where
  serverId : ℕ
  offerId : ℕ
  actor : Actor
  source : String

structure RevokedOffer where
  offerId : ℕ
  alreadyRevoked : Bool
deriving DecidableEq

def revokeOffer (input : RevokeOffer) : Action RevokeOfferError RevokedOffer := do
  beginWrite input.serverId
  let found ← select (Db.findServer input.serverId)
  let server ← Txn.orThrow .serverNotFound found
  let found ← select (Db.findOffer input.offerId)
  let offer ← Txn.orThrow .offerNotFound (found.filter fun o => o.targetServerId == server.id)
  match offer.outcome with
  | some outcome =>
    if outcome = .revoked then return ⟨input.offerId, true⟩ else Txn.throw (.terminal outcome)
  | none =>
    let status := authorityStatus server
    let deadlineRead ← Txn.now
    if offer.expiresAt ≤ deadlineRead then
      terminalizeOffer offer .expired none server input.actor input.source status status
      commit
      Txn.throw (.terminal .expired)
    else
      terminalizeOffer offer .revoked none server input.actor input.source status status
      commit
      return ⟨input.offerId, false⟩

structure RevokeAuthority where
  serverId : ℕ
  actor : Actor
  source : String

structure RevocationReceipt where
  serverId : ℕ
  changed : Bool
deriving DecidableEq

/-- close the open offer of a server whose authority is being revoked -/
def closeOpenOffer (server : Server) (actor : Actor) (source : String) :
    Option EnrollmentOffer → Action RevokeAuthorityError Unit
  | none => pure ()
  | some offer => do
    let before := authorityStatus server
    let now ← Txn.now
    let outcome := if offer.expiresAt ≤ now then OfferOutcome.expired else OfferOutcome.revoked
    terminalizeOffer offer outcome none server actor source before before

def revokeAuthority (input : RevokeAuthority) : Action RevokeAuthorityError RevocationReceipt := do
  beginWrite input.serverId
  let found ← select (Db.findServer input.serverId)
  let server ← Txn.orThrow .notFound found
  let openOffer ← findOpenOffer server.id
  if authorityStatus server = .unclaimed ∧ openOffer.isNone then
    commit
    Txn.emit (.removeConnection server.id)
    return ⟨input.serverId, false⟩
  else
    closeOpenOffer server input.actor input.source openOffer
    if authorityStatus server = .claimed then
      clearToken server.id
      insertEvent ⟨server, input.actor, input.source, none, .authorityRevoked, none, none, .claimed, .unclaimed⟩
    else pure ()
    commit
    Txn.emit (.removeConnection server.id)
    return ⟨input.serverId, true⟩

/-- the tables that `delete_server_scoped_rows` purges, one DELETE each; none is modelled here -/
def serverScopedTables : List String :=
  ["alert_state", "docker_event", "gpu_record", "network_probe_config", "network_probe_record",
    "network_probe_record_hourly", "ping_record", "record", "record_hourly", "task_result", "traffic_daily",
    "traffic_hourly", "traffic_state", "uptime_daily"]

def deleteServerScopedRows : Action AppError Unit :=
  Txn.forEach (fun _table => statement fun db => some ((), db)) serverScopedTables

structure DeleteServers where
  serverIds : List ℕ
  actor : Actor
  source : String

def deleteServers (input : DeleteServers) : Action AppError (List Server) :=
  let ids := (input.serverIds.mergeSort (· ≤ ·)).dedup
  match ids with
  | [] => pure []
  | first :: _ => do
    beginWrite first
    let rows ← select fun db => db.servers.filter fun s => ids.contains s.id
    Txn.forEach (fun row : Server => Txn.emit (.removeConnection row.id)) rows
    Txn.forEach (fun row => recordServerDeletedTx row input.actor input.source) rows
    let existingIds := rows.map (·.id)
    if existingIds = [] then pure ()
    else
      deleteServerScopedRows
      statement (Db.deleteServers existingIds)
    commit
    return rows

/-! ## Calls and runs -/

inductive Op where
  | onboard (input : OnboardServer)
  | issueOfferForUnclaimed (input : IssueOfferForUnclaimed)
  | claim (input : ClaimAgent)
  | beginReenrollment (input : BeginReenrollment)
  | replaceOffer (input : ReplaceOffer)
  | revokeOffer (input : RevokeOffer)
  | revokeAuthority (input : RevokeAuthority)
  | deleteServers (input : DeleteServers)

/-- one call: the operation and what its environment does while it runs -/
structure Call where
  op : Op
  env : Env

structure Answer where
  succeeded : Bool
  db : Db
  trace : List (Visible Db Effect)

def answer {ε α : Type} (m : Action ε α) (env : Env) (db : Db) : Answer :=
  let r := m.run env db
  ⟨r.1.isOk, r.2.1, r.2.2⟩

def exec (db : Db) (c : Call) : Answer :=
  match c.op with
  | .onboard input => answer (onboard A input) c.env db
  | .issueOfferForUnclaimed input => answer (issueOfferForUnclaimed A input) c.env db
  | .claim input => answer (claim A input) c.env db
  | .beginReenrollment input => answer (beginReenrollment A input) c.env db
  | .replaceOffer input => answer (replaceOffer A input) c.env db
  | .revokeOffer input => answer (revokeOffer input) c.env db
  | .revokeAuthority input => answer (revokeAuthority input) c.env db
  | .deleteServers input => answer (deleteServers input) c.env db

def step (db : Db) (c : Call) : Db := (exec A db c).db

def run (db : Db) (calls : List Call) : Db := calls.foldl (step A) db

end ServerBee.Authority
