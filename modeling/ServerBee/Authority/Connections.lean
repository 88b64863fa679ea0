/-
Agent sockets and lifecycle locks (`service/agent_manager.rs`, `PendingAdmission::admit`, `router/ws/agent/mod.rs`).

A machine of concurrent tasks over the tables, the connection map and the lifecycle locks of the servers. A task that
runs an operation takes its locks one by one, opens its transaction when no other writer is active, and then plays what
is visible of it (commit, connection removals) one action at a time before it releases its locks. `claim` looks its
candidate up before it takes the lock. An admission reads the token before the upgrade (`preflight`), reads it again
under the lock (`admitPending`), and registers the connection as a further step (`register`). Closing sockets and the
offline checker end in `close`, frames in `frame`; both take the lock, so they run when nobody holds it.

A connection also carries the run token it was admitted with. No code reads it; statements do.
-/
import ServerBee.Authority.Lifecycle

namespace ServerBee.Authority

open ServerBee.Lib

/-! ## The connection map -/

structure AgentConnection where
  connectionId : ℕ
  token : String
deriving DecidableEq

structure AgentManager where
  connections : ℕ → Option AgentConnection
  nextConnectionId : ℕ

namespace AgentManager

def addConnection (mgr : AgentManager) (serverId : ℕ) (token : String) : AgentManager where
  connections := Function.update mgr.connections serverId (some ⟨mgr.nextConnectionId, token⟩)
  nextConnectionId := mgr.nextConnectionId + 1

def removeConnection (mgr : AgentManager) (serverId : ℕ) : AgentManager :=
  { mgr with connections := Function.update mgr.connections serverId none }

def isCurrentConnection (mgr : AgentManager) (serverId expectedConnectionId : ℕ) : Bool :=
  (mgr.connections serverId).any fun connection => connection.connectionId == expectedConnectionId

def removeConnectionIfCurrent (mgr : AgentManager) (serverId expectedConnectionId : ℕ) : AgentManager :=
  if mgr.isCurrentConnection serverId expectedConnectionId then mgr.removeConnection serverId else mgr

variable {mgr : AgentManager} {sid k : ℕ} {token : String} {c : AgentConnection}

@[simp] theorem addConnection_self :
    (mgr.addConnection k token).connections k = some ⟨mgr.nextConnectionId, token⟩ := Function.update_self ..

theorem addConnection_of_ne (h : sid ≠ k) : (mgr.addConnection k token).connections sid = mgr.connections sid :=
  Function.update_of_ne h ..

@[simp] theorem removeConnection_self : (mgr.removeConnection k).connections k = none := Function.update_self ..

theorem removeConnection_of_ne (h : sid ≠ k) : (mgr.removeConnection k).connections sid = mgr.connections sid :=
  Function.update_of_ne h ..

/-- a removal registers nothing -/
theorem removeConnection_le (h : (mgr.removeConnection k).connections sid = some c) : mgr.connections sid = some c := by
  by_cases hk : sid = k
  · subst hk
    rw [removeConnection_self] at h
    cases h
  · rwa [removeConnection_of_ne hk] at h

theorem removeIfCurrent_le {cid : ℕ} (h : (mgr.removeConnectionIfCurrent k cid).connections sid = some c) :
    mgr.connections sid = some c := by
  unfold removeConnectionIfCurrent at h
  split_ifs at h
  · exact removeConnection_le h
  · exact h

/-- only the connection named goes -/
theorem removeIfCurrent_keeps {cid : ℕ} (h : mgr.connections sid = some c) (hne : c.connectionId ≠ cid) :
    (mgr.removeConnectionIfCurrent k cid).connections sid = some c := by
  unfold removeConnectionIfCurrent isCurrentConnection
  split_ifs with hcur
  · have hk : sid ≠ k := by
      rintro rfl
      simp [h, hne] at hcur
    rw [removeConnection_of_ne hk, h]
  · exact h

theorem removeIfCurrent_next {cid : ℕ} : (mgr.removeConnectionIfCurrent k cid).nextConnectionId = mgr.nextConnectionId := by
  unfold removeConnectionIfCurrent
  split_ifs <;> rfl

end AgentManager

/-! ## Token validation -/

def validateCandidates (A : Argon2) (token : String) : List Server → Option (Option Server)
  | [] => some none
  | candidate :: rest =>
    match candidate.tokenHash with
    | none => validateCandidates A token rest
    | some hash =>
      match A.verifyPassword token hash with
      | none => none
      | some true => some (some candidate)
      | some false => validateCandidates A token rest

/-- `none`: a stored hash is malformed -/
def validateAgentToken (A : Argon2) (db : Db) (token : PresentedRunToken) : Option (Option Server) :=
  validateCandidates A token.value
    (db.servers.filter fun s => s.tokenPrefix == some (textHead token.value) && s.tokenHash.isSome)

/-- the server's stored hash is that of `token` -/
def HasToken (A : Argon2) (db : Db) (sid : ℕ) (token : String) : Prop :=
  ∃ hash, tokenOf db sid = some hash ∧ A.verifyPassword token hash = some true

theorem validateCandidates_some {A : Argon2} {token : String} {l : List Server} {s : Server}
    (h : validateCandidates A token l = some (some s)) :
    s ∈ l ∧ ∃ hash, s.tokenHash = some hash ∧ A.verifyPassword token hash = some true := by
  induction l with
  | nil => cases h
  | cons candidate rest ih =>
    unfold validateCandidates at h
    split at h
    · exact ⟨List.mem_cons_of_mem _ (ih h).1, (ih h).2⟩
    · rename_i hash hh
      split at h
      · cases h
      · rename_i hv
        cases h
        exact ⟨List.mem_cons_self, hash, hh, hv⟩
      · exact ⟨List.mem_cons_of_mem _ (ih h).1, (ih h).2⟩

theorem validateAgentToken_some {A : Argon2} {db : Db} (inv : Inv db) {token : PresentedRunToken} {s : Server}
    (h : validateAgentToken A db token = some (some s)) : HasToken A db s.id token.value := by
  obtain ⟨hs, hash, hh, hv⟩ := validateCandidates_some h
  exact ⟨hash, by rw [tokenOf_mem inv (List.mem_filter.1 hs).1, hh], hv⟩

/-! ## Jobs -/

/-- an operation at the point where it takes its locks; a claim has found its candidate and hashed the token -/
inductive JobOp where
  | claim (input : ClaimAgent) (candidate : EnrollmentOffer) (tokenHash : String)
  | onboard (input : OnboardServer)
  | issueOfferForUnclaimed (input : IssueOfferForUnclaimed)
  | beginReenrollment (input : BeginReenrollment)
  | replaceOffer (input : ReplaceOffer)
  | revokeOffer (input : RevokeOffer)
  | revokeAuthority (input : RevokeAuthority)
  | deleteServers (input : DeleteServers)

structure Job where
  op : JobOp
  env : Env

/-- the servers whose lifecycle lock the operation holds, in the order it takes them -/
def Job.lockIds (job : Job) : List ℕ :=
  match job.op with
  | .claim _ candidate _ => [candidate.targetServerId]
  | .onboard _ => []
  | .issueOfferForUnclaimed input => [input.serverId]
  | .beginReenrollment input => [input.serverId]
  | .replaceOffer input => [input.serverId]
  | .revokeOffer input => [input.serverId]
  | .revokeAuthority input => [input.serverId]
  | .deleteServers input => (input.serverIds.mergeSort (· ≤ ·)).dedup

def Job.exec (A : Argon2) (db : Db) (job : Job) : Answer :=
  match job.op with
  | .claim input candidate tokenHash => answer (claimCandidate A input candidate tokenHash) job.env db
  | .onboard input => answer (Authority.onboard A input) job.env db
  | .issueOfferForUnclaimed input => answer (Authority.issueOfferForUnclaimed A input) job.env db
  | .beginReenrollment input => answer (Authority.beginReenrollment A input) job.env db
  | .replaceOffer input => answer (Authority.replaceOffer A input) job.env db
  | .revokeOffer input => answer (Authority.revokeOffer input) job.env db
  | .revokeAuthority input => answer (Authority.revokeAuthority input) job.env db
  | .deleteServers input => answer (Authority.deleteServers input) job.env db

/-- the part of an operation before its locks; `none`: it has already failed -/
def prepare (A : Argon2) (db : Db) (c : Call) (salt : String) : Option Job :=
  match c.op with
  | .claim input =>
    match (findOfferForCode A input.code : Action ClaimError _).run c.env db with
    | (.ok (some candidate), _) =>
      (A.hashPassword salt input.proposedRunToken.value).map fun hash => ⟨.claim input candidate hash, c.env⟩
    | _ => none
  | .onboard input => some ⟨.onboard input, c.env⟩
  | .issueOfferForUnclaimed input => some ⟨.issueOfferForUnclaimed input, c.env⟩
  | .beginReenrollment input => some ⟨.beginReenrollment input, c.env⟩
  | .replaceOffer input => some ⟨.replaceOffer input, c.env⟩
  | .revokeOffer input => some ⟨.revokeOffer input, c.env⟩
  | .revokeAuthority input => some ⟨.revokeAuthority input, c.env⟩
  | .deleteServers input => some ⟨.deleteServers input, c.env⟩

/-- a success of this job ends every connection that the server had before it -/
def Job.Fences (job : Job) (sid : ℕ) : Prop :=
  match job.op with
  | .claim _ candidate _ => candidate.targetServerId = sid
  | .beginReenrollment input => input.mode = .emergency ∧ input.serverId = sid
  | .revokeAuthority input => input.serverId = sid
  | .deleteServers input => sid ∈ input.serverIds
  | _ => False

/-! ## The machine -/

/-- an admitted socket -/
structure Socket where
  serverId : ℕ
  connectionId : ℕ
  token : String
deriving DecidableEq

inductive Task where
  | idle
  | locking (job : Job) (todo : List ℕ)
  | running (job : Job) (before : Db) (answer : Answer) (played left : List (Visible Db Effect))
  | pending (expectedServerId : ℕ) (token : PresentedRunToken)
  | admitting (serverId : ℕ) (token : PresentedRunToken)

structure Machine where
  db : Db
  mgr : AgentManager
  locks : ℕ → Option ℕ
  writer : Option ℕ
  tasks : ℕ → Task
  sockets : List Socket
  handled : List Socket

/-- the server starts over its tables, with no agent connected -/
def Machine.boot (db : Db) : Machine := ⟨db, ⟨fun _ => none, 1⟩, fun _ => none, none, fun _ => .idle, [], []⟩

inductive Ev where
  | submit (t : ℕ) (c : Call) (salt : String)
  | acquire (t : ℕ)
  | openTx (t : ℕ)
  | play (t : ℕ)
  | finish (t : ℕ)
  | preflight (t : ℕ) (token : PresentedRunToken)
  | admitPending (t : ℕ)
  | register (t : ℕ)
  | close (serverId connectionId : ℕ)
  | frame (s : Socket)

def Machine.setTask (m : Machine) (t : ℕ) (task : Task) : Machine := { m with tasks := Function.update m.tasks t task }

/-- give back every lock of task `t`, and its write transaction -/
def Machine.release (m : Machine) (t : ℕ) : Machine :=
  { m with
    locks := fun sid => if m.locks sid = some t then none else m.locks sid
    writer := if m.writer = some t then none else m.writer
    tasks := Function.update m.tasks t .idle }

def Machine.perform (m : Machine) : Visible Db Effect → Machine
  | .commit db => { m with db := db, writer := none }
  | .emit (.removeConnection sid) => { m with mgr := m.mgr.removeConnection sid }

/-- what the check at the head of `handle_current_connection_frame` answers -/
def Machine.isCurrent (m : Machine) (s : Socket) : Bool := m.mgr.isCurrentConnection s.serverId s.connectionId

/-- one step; a step that is not enabled changes nothing -/
def Machine.step (A : Argon2) (m : Machine) : Ev → Machine
  | .submit t c salt =>
    match m.tasks t, prepare A m.db c salt with
    | .idle, some job => m.setTask t (.locking job job.lockIds)
    | _, _ => m
  | .acquire t =>
    match m.tasks t with
    | .locking job (sid :: todo) =>
      if m.locks sid = none then
        Machine.setTask { m with locks := Function.update m.locks sid (some t) } t (.locking job todo)
      else m
    | _ => m
  | .openTx t =>
    match m.tasks t with
    | .locking job [] =>
      if m.writer = none then
        Machine.setTask { m with writer := some t } t
          (.running job m.db (job.exec A m.db) [] (job.exec A m.db).trace)
      else m
    | _ => m
  | .play t =>
    match m.tasks t with
    | .running job before answer played (a :: left) =>
      (m.perform a).setTask t (.running job before answer (played ++ [a]) left)
    | _ => m
  | .finish t =>
    match m.tasks t with
    | .running _ _ _ _ [] => m.release t
    | _ => m
  | .preflight t token =>
    match m.tasks t, validateAgentToken A m.db token with
    | .idle, some (some server) => m.setTask t (.pending server.id token)
    | _, _ => m
  | .admitPending t =>
    match m.tasks t with
    | .pending expectedServerId token =>
      if m.locks expectedServerId = none then
        match validateAgentToken A m.db token with
        | some (some server) =>
          if server.id = expectedServerId then
            Machine.setTask { m with locks := Function.update m.locks server.id (some t) } t
              (.admitting server.id token)
          else m.setTask t .idle
        | _ => m.setTask t .idle
      else m
    | _ => m
  | .register t =>
    match m.tasks t with
    | .admitting serverId token =>
      Machine.release { m with
        mgr := m.mgr.addConnection serverId token.value
        sockets := m.sockets ++ [⟨serverId, m.mgr.nextConnectionId, token.value⟩] } t
    | _ => m
  | .close serverId connectionId =>
    if m.locks serverId = none then
      { m with mgr := m.mgr.removeConnectionIfCurrent serverId connectionId }
    else m
  | .frame s =>
    if s ∈ m.sockets ∧ m.locks s.serverId = none ∧ m.isCurrent s = true then { m with handled := m.handled ++ [s] }
    else m

def Machine.run (A : Argon2) (m : Machine) (evs : List Ev) : Machine := evs.foldl (Machine.step A) m

/-- the state after `evs`, the server having started over the tables that `calls` left -/
def Machine.reached (A : Argon2) (calls : List Call) (evs : List Ev) : Machine :=
  (Machine.boot (Authority.run A Db.empty calls)).run A evs

end ServerBee.Authority
