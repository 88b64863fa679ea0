/-
The onboarding of a server (`service/server_onboarding.rs`: `ServerOnboarding::onboard`).

A call normalizes its profile, takes the lock of its actor and request id, looks for a stored request and, when there is
none, creates everything in one transaction (`createServer`); the rows of the authority tables are written by
`issueInitialOfferTx`. A server row is kept in two parts, the columns of the authority and the columns of the profile.

The lock is an entry of the registry, shared by the calls that hold a clone of it. It is dropped in three steps after the
answer is known: the guard, the registry entry when nobody else holds a clone (`RequestLockCleanup`), the clone. Calls
interleave between their steps; a transaction is one step, and every statement may fail.
-/
import ServerBee.Onboarding.Profile

namespace ServerBee.Onboarding

open ServerBee.Lib ServerBee.Authority
open ServerBee.Renewal (Crates RenewalState)

/-! ## Tables -/

/-- the profile columns of a server -/
structure ProfileRow where
  serverId : ℕ
  renewalState : Option RenewalState
  groupId : Option String
  remark : Option String
  publicRemark : Option String
  price : Option F64
  currency : Option String
  billingCycle : Option String
  billingStartDay : Option ℤ
  expiredAt : Option ℤ
  trafficLimit : Option ℤ
  trafficLimitType : Option String
deriving DecidableEq

structure TagRow where
  serverId : ℕ
  tag : String
deriving DecidableEq, Repr

structure ProbeConfig where
  id : ℕ
  serverId : ℕ
  targetId : String
  createdAt : ℤ
deriving DecidableEq, Repr

/-- `server_onboarding_requests` -/
structure RequestRow where
  id : ℕ
  actorId : String
  requestId : String
  normalizedInputHash : String
  serverId : ℕ
  createdAt : ℤ
deriving DecidableEq, Repr

structure Db where
  authority : Authority.Db
  profiles : List ProfileRow
  tags : List TagRow
  probes : List ProbeConfig
  requests : List RequestRow
  /-- the setting of the network probes -/
  defaultTargetIds : List String

abbrev Action (α : Type) := Txn Db Effect OnboardingError α

/-- `CAP_DEFAULT` -/
def capDefault : ℤ := 1852

/-! ## The transaction -/

def statement {α : Type} (f : Db → Option (α × Db)) : Action α := Txn.stmt (.store .db) f

/-- a part that another module runs on the authority tables -/
def authority {α : Type} (m : Authority.Action OnboardingError α) : Action α :=
  Txn.zoom (·.authority) (fun authority db => { db with authority := authority }) m

/-- `max_servers` is a limit when it is positive; the count is read in the transaction -/
def checkLimit (maxServers : ℕ) : Action Unit :=
  if 0 < maxServers then do
    let count ← Txn.query (.store .db) fun db : Db => db.authority.servers.length
    if maxServers ≤ count then do
      -- the explicit rollback
      statement fun db => some ((), db)
      Txn.throw (.limitReached maxServers)
    else pure ()
  else pure ()

/-- a typed date owns an occurrence from the start; then the schedule catches up -/
def startRenewal (C : Crates) (fresh : ℕ) (typedCalendar : Bool) (normalized : NormalizedProfile) (now : ℤ) :
    Except String (Option RenewalState × Option ℤ) :=
  match normalized.renewalState with
  | none => .ok (none, normalized.expiredAt)
  | some renewal =>
    let renewal :=
      if typedCalendar && normalized.expiredAt.isSome && renewal.occurrenceId.isNone then
        { renewal with occurrenceId := some fresh }
      else renewal
    match Renewal.advance C (fresh + 1) renewal normalized.expiredAt normalized.billingCycle now with
    | .error e => .error e
    | .ok r => .ok (some r.state, r.deadline)

/-- three ids, of which the schedule may use any -/
def drawOccurrences : Action ℕ :=
  authority (Txn.modifyGet fun db => (db.nextId, { db with nextId := db.nextId + 3 }))

def insertServer (row : Authority.Server) (profile : ProfileRow) : Action Unit :=
  statement fun db =>
    if (db.authority.findServer row.id).isSome then none
    else some ((), { db with
      authority := { db.authority with servers := db.authority.servers ++ [row] }
      profiles := db.profiles ++ [profile] })

/-- the key of a tag is the server and the text -/
def insertTagRow (serverId : ℕ) (tag : String) : Action Unit :=
  statement fun db =>
    if (⟨serverId, tag⟩ : TagRow) ∈ db.tags then none else some ((), { db with tags := db.tags ++ [⟨serverId, tag⟩] })

def insertProbe (serverId : ℕ) (now : ℤ) (targetId : String) : Action Unit := do
  let id ← authority newId
  statement fun db => some ((), { db with probes := db.probes ++ [⟨id, serverId, targetId, now⟩] })

/-- `apply_defaults_tx` -/
def applyDefaults (serverId : ℕ) (targetIds : List String) : Action Unit :=
  if targetIds = [] then pure ()
  else if 20 < targetIds.length then Txn.throw (.store (.internal "Cannot assign more than 20 targets to a server"))
  else do
    statement fun db => some ((), { db with probes := db.probes.filter fun p => p.serverId != serverId })
    let now ← Txn.now
    Txn.forEach (insertProbe serverId now) targetIds

/-- `UNIQUE(actor_id, request_id)` -/
def insertRequest (row : RequestRow) : Action Unit :=
  statement fun db =>
    if db.requests.any fun r => r.actorId == row.actorId && r.requestId == row.requestId then none
    else some ((), { db with requests := db.requests ++ [row] })

def profileRow (serverId : ℕ) (normalized : NormalizedProfile) (renewalState : Option RenewalState) (deadline : Option ℤ) :
    ProfileRow where
  serverId := serverId
  renewalState := renewalState
  groupId := normalized.groupId
  remark := normalized.remark
  publicRemark := normalized.publicRemark
  price := normalized.price
  currency := normalized.currency
  billingCycle := normalized.billingCycle
  billingStartDay := normalized.billingStartDay
  expiredAt := deadline
  trafficLimit := normalized.trafficLimit
  trafficLimitType := normalized.trafficLimitType

/-- what a call knows when it has its lock -/
structure Prepared where
  normalized : NormalizedProfile
  inputHash : String
  typedCalendar : Bool

/-- what the service is constructed with -/
structure Config where
  argon2 : Argon2
  crates : Crates
  encoding : Encoding
  maxServers : ℕ

def createServer (cfg : Config) (input : OnboardServer) (p : Prepared) (defaultTargetIds : List String) :
    Action (ℕ × IssuedOffer) := do
  Txn.begin (.store .db)
  checkLimit cfg.maxServers
  let serverId ← authority newId
  let now ← Txn.now
  let fresh ← drawOccurrences
  let schedule ← Txn.lift (fun e => .store (.internal e)) (startRenewal cfg.crates fresh p.typedCalendar p.normalized now)
  let row : Authority.Server := ⟨serverId, none, none, p.normalized.name, capDefault, none, now⟩
  insertServer row (profileRow serverId p.normalized schedule.1 schedule.2)
  Txn.forEach (insertTagRow serverId) p.normalized.tags
  applyDefaults serverId defaultTargetIds
  let enrollment ← authority (issueInitialOfferTx cfg.argon2 row (.user input.actorId) input.source input.offerTtl)
  let id ← authority newId
  insertRequest ⟨id, input.actorId, input.requestId, p.inputHash, serverId, now⟩
  Txn.commit (.store .db)
  return (serverId, enrollment)

/-! ## Calls -/

inductive OnboardingResult where
  | created (serverId : ℕ) (enrollment : IssuedOffer)
  | replayed (serverId : ℕ) (outstandingOffer : Option OutstandingOffer)
deriving DecidableEq

abbrev Answer := Except OnboardingError OnboardingResult

/-- where a call is. From `queued` to `leaving` it holds a clone of the lock, from `locked` to `releasing` the guard -/
inductive Pc where
  | start
  | queued (lock : ℕ) (p : Prepared)
  | locked (lock : ℕ) (p : Prepared)
  | found (lock : ℕ) (p : Prepared) (serverId : ℕ)
  | missing (lock : ℕ) (p : Prepared)
  | ready (lock : ℕ) (p : Prepared) (defaultTargetIds : List String)
  | releasing (lock : ℕ) (answer : Answer)
  | cleaning (lock : ℕ) (answer : Answer)
  | leaving (lock : ℕ) (answer : Answer)
  | done (answer : Answer)

def Pc.clone : Pc → Option ℕ
  | .start | .done _ => none
  | .queued lock _ | .locked lock _ | .found lock _ _ | .missing lock _ | .ready lock _ _ => some lock
  | .releasing lock _ | .cleaning lock _ | .leaving lock _ => some lock

def Pc.guard : Pc → Option ℕ
  | .start | .done _ | .queued _ _ | .cleaning _ _ | .leaving _ _ => none
  | .locked lock _ | .found lock _ _ | .missing lock _ | .ready lock _ _ | .releasing lock _ => some lock

def Pc.answer : Pc → Option Answer
  | .start | .queued _ _ | .locked _ _ | .found _ _ _ | .missing _ _ | .ready _ _ _ => none
  | .releasing _ answer | .cleaning _ answer | .leaving _ answer | .done answer => some answer

structure Call where
  input : OnboardServer
  pc : Pc

/-- `request_locks` is the registry; lock ids below `nextLock` are used -/
structure State where
  db : Db
  requestLocks : String → Option ℕ
  calls : List Call
  nextLock : ℕ

def OnboardServer.lockKey (input : OnboardServer) : String := input.actorId ++ ":" ++ input.requestId

/-- the part of `onboard` before its lock -/
def prepare (cfg : Config) (fresh : ℕ) (input : OnboardServer) : Except OnboardingError Prepared :=
  let typedCalendar := input.profile.renewal.any fun renewal => renewal.expiryDate.isSome || renewal.billingTimezone.isSome
  match NormalizedProfile.fromInput cfg.crates fresh input.profile with
  | .error e => .error e
  | .ok normalized =>
    if trim input.actorId = "" then .error (.invalid "actor id must not be empty")
    else .ok ⟨normalized, normalized.hash cfg.encoding input.offerTtl, typedCalendar⟩

def findRequest (actorId requestId : String) (db : Db) : Option RequestRow :=
  db.requests.find? fun r => r.actorId == actorId && r.requestId == requestId

/-- `AgentAuthority::state`, which reads only; the two selects may fail -/
def authorityState (env : Env) (serverId : ℕ) (db : Db) : Answer :=
  if env.fails 0 || env.fails 1 then .error (.store .db)
  else
    match db.authority.findServer serverId with
    | none => .error (.store (.internal "idempotent onboarding target no longer exists"))
    | some server =>
      let offers := db.authority.offers.filter fun o =>
        o.targetServerId == serverId && o.isOpen && decide (env.clock 0 < o.expiresAt)
      .ok (.replayed server.id (offers.getLast?.map toOutstanding))

/-- the strong count of a registered lock: its entry and the clones -/
def State.strongCount (s : State) (lock : ℕ) : ℕ := 1 + s.calls.countP fun c => c.pc.clone == some lock

/-- one step of a call: where it stands next, and what it changes -/
def Call.step (cfg : Config) (env : Env) (fresh : ℕ) (s : State) (c : Call) : Pc × State :=
  match c.pc with
  | .start =>
    match prepare cfg fresh c.input with
    | .error e => (.done (.error e), s)
    | .ok p =>
      match s.requestLocks c.input.lockKey with
      | some lock => (.queued lock p, s)
      | none =>
        (.queued s.nextLock p, { s with
          requestLocks := Function.update s.requestLocks c.input.lockKey (some s.nextLock)
          nextLock := s.nextLock + 1 })
  | .queued lock p =>
    if s.calls.any fun c => c.pc.guard == some lock then (.queued lock p, s) else (.locked lock p, s)
  | .locked lock p =>
    if env.fails 0 then (.releasing lock (.error (.store .db)), s)
    else
      match findRequest c.input.actorId c.input.requestId s.db with
      | none => (.missing lock p, s)
      | some existing =>
        if existing.normalizedInputHash ≠ p.inputHash then (.releasing lock (.error .idempotencyConflict), s)
        else (.found lock p existing.serverId, s)
  | .found lock _ serverId => (.releasing lock (authorityState env serverId s.db), s)
  | .missing lock p =>
    if env.fails 0 then (.releasing lock (.error (.store .db)), s) else (.ready lock p s.db.defaultTargetIds, s)
  | .ready lock p defaultTargetIds =>
    match (createServer cfg c.input p defaultTargetIds).run env s.db with
    | (.ok (serverId, enrollment), db, _) => (.releasing lock (.ok (.created serverId enrollment)), { s with db := db })
    | (.error e, db, _) => (.releasing lock (.error e), { s with db := db })
  | .releasing lock answer => (.cleaning lock answer, s)
  | .cleaning lock answer =>
    if s.requestLocks c.input.lockKey = some lock ∧ s.strongCount lock = 2 then
      (.leaving lock answer, { s with requestLocks := Function.update s.requestLocks c.input.lockKey none })
    else (.leaving lock answer, s)
  | .leaving _ answer => (.done answer, s)
  | .done answer => (.done answer, s)

inductive Op where
  | onboard (input : OnboardServer)
  | advance (i : ℕ) (env : Env) (fresh : ℕ)

def step (cfg : Config) (s : State) : Op → State
  | .onboard input => { s with calls := s.calls ++ [⟨input, .start⟩] }
  | .advance i env fresh =>
    match s.calls[i]? with
    | none => s
    | some c =>
      let r := c.step cfg env fresh s
      { r.2 with calls := r.2.calls.set i ⟨c.input, r.1⟩ }

end ServerBee.Onboarding
