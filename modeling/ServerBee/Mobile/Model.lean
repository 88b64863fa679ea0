/-
Mobile logins, their refresh secrets and their revocation (`service/mobile_auth.rs`, `service/mobile_auth_recovery.rs`).

Identifiers are ℕ, instants ℤ. A secret that the server draws is `drawn n`, with a new `n` each time; what a client makes
up is a `text`. Hashing is injective, so the SHA-256 of a secret is kept as the secret itself, and an Argon2 hash as the
secret with its salt. Row and unique constraints are those of the migrations: sessions and device tokens refer to a
mobile session without cascade, revocation proofs and push registrations with cascade.

This file has the tables and the body of each transaction; `.error` is an error, after which the transaction is rolled
back. Columns that nothing here reads (device name, address, user agent, last use) are left out.
-/
import ServerBee.Lib.Except
import ServerBee.Lib.Table

namespace ServerBee.Mobile

open ServerBee.Lib

/-! ## Rows -/

inductive Secret where
  | drawn (n : ℕ)
  | text (s : String)
deriving DecidableEq, Repr

/-- an Argon2 hash -/
structure RefreshHash where
  secret : Secret
  salt : ℕ
deriving DecidableEq, Repr

def verifyRefreshToken (token : Secret) (hash : RefreshHash) : Bool := hash.secret == token

structure User where
  id : ℕ
  username : String
  passwordHash : String
  totpSecret : Option String
  role : String
  mustChangePassword : Bool
  passwordChangedAt : Option ℤ
deriving DecidableEq, Repr

structure MobileSession where
  id : ℕ
  userId : ℕ
  refreshTokenHash : RefreshHash
  revocationTokenHash : Option Secret
  installationId : ℕ
  createdAt : ℤ
  expiresAt : ℤ
deriving DecidableEq, Repr

inductive Source where
  | web
  | mobile
deriving DecidableEq, Repr

/-- a row of `sessions` -/
structure AccessSession where
  id : ℕ
  userId : ℕ
  token : Secret
  expiresAt : ℤ
  createdAt : ℤ
  source : Source
  mobileSessionId : Option ℕ
deriving DecidableEq, Repr

structure RevocationProof where
  mobileSessionId : ℕ
  tokenHash : Secret
deriving DecidableEq, Repr

/-- a device token or a push registration: unique for its installation -/
structure Registration where
  installationId : ℕ
  userId : ℕ
  mobileSessionId : ℕ
deriving DecidableEq, Repr

structure Db where
  users : Table User.id
  mobileSessions : Table MobileSession.id
  sessions : Table AccessSession.id
  proofs : Table (id : RevocationProof → RevocationProof)
  deviceTokens : Table Registration.installationId
  registrations : Table Registration.installationId

inductive AppError where
  | unauthorized
  | forbidden (message : String)
  | notFound (message : String)
  | conflict (message : String)
  | badRequest (message : String)
  | validation (message : String)
  | internal
deriving DecidableEq, Repr

def mustChange : AppError :=
  .forbidden "MUST_CHANGE_PASSWORD: complete onboarding via the web UI before using mobile"

def guardOr (c : Bool) (e : AppError) : Except AppError Unit := if c then .ok () else .error e

def okOr {α : Type} (x : Option α) (e : AppError) : Except AppError α :=
  match x with
  | some a => .ok a
  | none => .error e

theorem guardOr_ok {c : Bool} {e : AppError} {u : Unit} : guardOr c e = .ok u ↔ c = true := by
  unfold guardOr
  split_ifs with h <;> simp [h]

theorem okOr_ok {α : Type} {x : Option α} {e : AppError} {a : α} : okOr x e = .ok a ↔ x = some a := by
  cases x <;> simp [okOr]

/-! ## Statements -/

namespace Db

def insertMobileSession (db : Db) (m : MobileSession) : Option Db :=
  if (db.users.get m.userId).isSome then
    (db.mobileSessions.insert m).map fun t => { db with mobileSessions := t }
  else none

/-- refused without the mobile session it refers to, or when the token is taken -/
def insertSession (db : Db) (row : AccessSession) : Option Db :=
  if row.mobileSessionId.all (fun id => (db.mobileSessions.get id).isSome) &&
      db.sessions.rows.all (fun other => other.token != row.token) then
    (db.sessions.insert row).map fun t => { db with sessions := t }
  else none

def insertProof (db : Db) (proof : RevocationProof) : Option Db :=
  if (db.mobileSessions.get proof.mobileSessionId).isSome then
    (db.proofs.insert proof).map fun t => { db with proofs := t }
  else none

def deleteSessionsOf (db : Db) (id : ℕ) : Db :=
  { db with sessions := db.sessions.delete fun row => row.mobileSessionId == some id }

def deleteDeviceTokensOf (db : Db) (id : ℕ) : Db :=
  { db with deviceTokens := db.deviceTokens.delete fun row => row.mobileSessionId == id }

def deleteRegistrationsOf (db : Db) (id : ℕ) : Db :=
  { db with registrations := db.registrations.delete fun row => row.mobileSessionId == id }

def deleteProofsOf (db : Db) (id : ℕ) : Db :=
  { db with proofs := db.proofs.delete fun proof => proof.mobileSessionId == id }

/-- refused while a session or a device token refers to one of the rows; proofs and registrations go with them -/
def deleteMobileSessions (db : Db) (dead : ℕ → Bool) : Option Db :=
  if db.sessions.rows.any (fun row => row.mobileSessionId.any dead) ||
      db.deviceTokens.rows.any (fun row => dead row.mobileSessionId) then none
  else
    some { db with
      mobileSessions := db.mobileSessions.delete fun m => dead m.id
      proofs := db.proofs.delete fun proof => dead proof.mobileSessionId
      registrations := db.registrations.delete fun row => dead row.mobileSessionId }

def deleteMobileSession (db : Db) (id : ℕ) : Option Db := db.deleteMobileSessions (· == id)

end Db

/-! ## Login -/

/-- what third-party code decides: Argon2 and TOTP checks of a user, and that a text is the tag with the canonical base64url
of 32 bytes after it -/
structure Crates where
  verifyPassword : String → String → Bool
  verifyTotp : String → String → Bool
  canonicalProof : String → Bool

structure MobileConfig where
  refreshTtl : ℤ
  accessTtl : ℤ

structure MobileTokenResponse where
  mobileSessionId : ℕ
  accessToken : Secret
  accessExpiresInSecs : ℤ
  refreshToken : Secret
  refreshExpiresInSecs : ℤ
  revocationToken : Option Secret
  userId : ℕ
  username : String
  role : String
deriving DecidableEq, Repr

/-- the secrets that a response hands out -/
def MobileTokenResponse.secrets (response : MobileTokenResponse) : List Secret :=
  [response.accessToken, response.refreshToken] ++ response.revocationToken.toList

def validateCredentials (C : Crates) (db : Db) (username password : String) (totpCode : Option String) :
    Except AppError User := do
  let user ← okOr (db.users.rows.find? fun u => u.username == username) .unauthorized
  guardOr (C.verifyPassword password user.passwordHash) .unauthorized
  match user.totpSecret, totpCode with
  | none, _ => pure user
  | some _, none => .error (.validation "2fa_required")
  | some secret, some code => do
    guardOr (C.verifyTotp secret code) .unauthorized
    pure user

/-- the part of a login before it writes -/
def authenticate (C : Crates) (db : Db) (username password : String) (totpCode : Option String) : Except AppError User := do
  let user ← validateCredentials C db username password totpCode
  guardOr (!user.mustChangePassword) mustChange
  pure user

/-- the rows of a login and its response. It draws `fresh` for the access token, `fresh + 1` for the refresh token,
`fresh + 2` for the revocation token, `fresh + 3` for the mobile session and `fresh + 4` for the access session. -/
def loginMobileSession (config : MobileConfig) (user : User) (installationId fresh salt : ℕ) (now : ℤ) : MobileSession :=
  ⟨fresh + 3, user.id, ⟨.drawn (fresh + 1), salt⟩, some (.drawn (fresh + 2)), installationId, now,
    now + config.refreshTtl⟩

def loginAccessSession (config : MobileConfig) (user : User) (fresh : ℕ) (now : ℤ) : AccessSession :=
  ⟨fresh + 4, user.id, .drawn fresh, now + config.accessTtl, now, .mobile, some (fresh + 3)⟩

def loginResponse (config : MobileConfig) (user : User) (fresh : ℕ) : MobileTokenResponse :=
  ⟨fresh + 3, .drawn fresh, config.accessTtl, .drawn (fresh + 1), config.refreshTtl, some (.drawn (fresh + 2)),
    user.id, user.username, user.role⟩

/-! ## Refresh -/

def proofTag : String := "sb-revoke-v1."

/-- `starts_with("sb-revoke-v1.")`; what the server draws has no dot -/
def Secret.isProof : Secret → Bool
  | .drawn _ => false
  | .text s => s.startsWith proofTag

def validRevocationProof (C : Crates) (proof : Secret) : Bool :=
  match proof with
  | .text s => proof.isProof && C.canonicalProof s
  | .drawn _ => false

structure RefreshRequest where
  token : Secret
  installationId : ℕ
  proof : Option Secret
deriving DecidableEq, Repr

/-- the part of a refresh before its transaction: the unexpired session of the installation with that secret -/
def refreshVerify (C : Crates) (db : Db) (req : RefreshRequest) (now : ℤ) : Except AppError MobileSession := do
  guardOr (req.proof.all (validRevocationProof C)) (.validation "Invalid revocation_proof")
  okOr (db.mobileSessions.rows.find? fun m => m.installationId == req.installationId && decide (now < m.expiresAt) &&
    verifyRefreshToken req.token m.refreshTokenHash) .unauthorized

/-- a proposed proof is bound to the session, unless it belongs to another one -/
def bindProof (db : Db) (current : MobileSession) (proof : Option Secret) : Except AppError Db :=
  match proof with
  | none => .ok db
  | some proof => do
    guardOr (db.mobileSessions.rows.all fun m => m.revocationTokenHash != some proof || m.id == current.id) .unauthorized
    guardOr (db.proofs.rows.all fun p => p.tokenHash != proof || p.mobileSessionId == current.id) .unauthorized
    if (db.proofs.get ⟨current.id, proof⟩).isSome then pure db
    else okOr (db.insertProof ⟨current.id, proof⟩) .internal

/-- a row as the conditional update leaves it -/
def MobileSession.rotate (hash : RefreshHash) (expiresAt : ℤ) (m : MobileSession) : MobileSession :=
  { m with refreshTokenHash := hash, expiresAt := expiresAt }

/-- the row as it was verified, and still unexpired -/
def MobileSession.stands (old : MobileSession) (req : RefreshRequest) (now : ℤ) (m : MobileSession) : Bool :=
  m.id == old.id && m.userId == old.userId && m.installationId == req.installationId &&
    m.refreshTokenHash == old.refreshTokenHash && decide (now < m.expiresAt)

/-- the statements of a refresh on its own row: the conditional write that consumes the verified secret, and the row it
leaves; the first rotation of an older login keeps its refresh secret as a deletion-only credential -/
def consumeSecret (db : Db) (old : MobileSession) (req : RefreshRequest) (hash : RefreshHash) (expiresAt now : ℤ) :
    Option (Table MobileSession.id × MobileSession) :=
  if (db.mobileSessions.get old.id).any (old.stands req now) then
    let rows := db.mobileSessions.update (old.stands req now) (.rotate hash expiresAt) fun _ _ => rfl
    (rows.get old.id).map fun current =>
      let current := { current with revocationTokenHash := some (current.revocationTokenHash.getD req.token) }
      (rows.set current, current)
  else none

/-- the transaction of a refresh. It draws `fresh` for the access token, `fresh + 1` for the refresh token and `fresh + 2`
for the session row. -/
def refreshCommit (config : MobileConfig) (db : Db) (old : MobileSession) (req : RefreshRequest) (fresh salt : ℕ) (now : ℤ) :
    Except AppError (Db × MobileTokenResponse) := do
  let (rows, current) ← okOr (consumeSecret db old req ⟨.drawn (fresh + 1), salt⟩ (now + config.refreshTtl) now)
    .unauthorized
  let user ← okOr (db.users.get current.userId) .unauthorized
  guardOr (!user.mustChangePassword) mustChange
  guardOr (user.passwordChangedAt.all fun changed => decide (changed ≤ current.createdAt)) .unauthorized
  let db ← bindProof { db with mobileSessions := rows } current req.proof
  let db ← okOr (db.insertProof ⟨current.id, req.token⟩) .internal
  let db ← okOr ((db.deleteSessionsOf current.id).insertSession
    ⟨fresh + 2, user.id, .drawn fresh, now + config.accessTtl, now, .mobile, some current.id⟩) .internal
  pure (db, ⟨current.id, .drawn fresh, config.accessTtl, .drawn (fresh + 1), config.refreshTtl, req.proof,
    user.id, user.username, user.role⟩)

/-! ## Revocation -/

/-- the deletion that logout and device revocation share -/
def deleteMobileSessionCascade (db : Db) (id : ℕ) : Except AppError Db :=
  okOr (((db.deleteSessionsOf id).deleteDeviceTokensOf id).deleteMobileSession id) .internal

/-- the mobile sessions of a user but the one kept, ended by a change of the password or of the account -/
def revokeUserMobileSessions (db : Db) (userId : ℕ) (keep : Option ℕ) : Except AppError Db :=
  let dead := fun id => (db.mobileSessions.get id).any fun m => m.userId == userId && keep.all (· != m.id)
  okOr (Db.deleteMobileSessions { db with
    deviceTokens := db.deviceTokens.delete fun row => dead row.mobileSessionId
    sessions := db.sessions.delete fun row => row.mobileSessionId.any dead } dead) .internal

/-- the ownership check of a device revocation, outside its transaction -/
def ownsDevice (db : Db) (id userId : ℕ) : Except AppError Unit :=
  match db.mobileSessions.get id with
  | none => .error (.notFound "Mobile session not found")
  | some m => guardOr (m.userId == userId) (.forbidden "Cannot revoke another user's device")

def hasOperationalMobileState (db : Db) (id : ℕ) : Bool :=
  db.sessions.rows.any (fun row => row.mobileSessionId == some id) ||
    db.deviceTokens.rows.any (fun row => row.mobileSessionId == id) ||
    db.registrations.rows.any (fun row => row.mobileSessionId == id) ||
    db.proofs.rows.any (fun proof => proof.mobileSessionId == id)

structure RevokeRequest where
  installationId : ℕ
  token : Secret
  expected : Option ℕ
deriving DecidableEq, Repr

def credentialMatches (db : Db) (token : Secret) (m : MobileSession) : Bool :=
  m.revocationTokenHash == some token || (db.proofs.get ⟨m.id, token⟩).isSome

/-- how one pass of the revocation loop ends -/
inductive Pass where
  | revoked (db : Db)
  | alreadyAbsent
  /-- the lock is released for the legacy check -/
  | legacy

def revokeTarget (db : Db) (expected : Option ℕ) (target : MobileSession) : Except AppError Pass := do
  guardOr (expected.all (· == target.id)) .unauthorized
  let db ← okOr (((db.deleteDeviceTokensOf target.id).deleteSessionsOf target.id).deleteMobileSession target.id) .internal
  pure (.revoked db)

/-- whether the expected session is absent; it must be of the installation, or have left nothing behind -/
def expectedAbsent (db : Db) (req : RevokeRequest) : Except AppError Bool :=
  match req.expected with
  | none => .ok false
  | some id =>
    match db.mobileSessions.get id with
    | some original => do
      guardOr (original.installationId == req.installationId) .unauthorized
      pure false
    | none => do
      guardOr (!hasOperationalMobileState db id) .unauthorized
      pure true

/-- one pass; `checked` is the result of the legacy check, `none` before it is made -/
def revokePass (db : Db) (req : RevokeRequest) (checked : Option (Option MobileSession)) : Except AppError Pass := do
  let absent ← expectedAbsent db req
  if absent then pure .alreadyAbsent
  else
    match db.mobileSessions.rows.find? fun m => m.installationId == req.installationId &&
        credentialMatches db req.token m && req.expected.all (· == m.id), checked with
    | some target, _ => revokeTarget db req.expected target
    | none, none => if req.token.isProof then .error .unauthorized else pure .legacy
    | none, some verified =>
      let target := verified.bind fun v => (db.mobileSessions.get v.id).filter fun m =>
        m.installationId == req.installationId && m.refreshTokenHash == v.refreshTokenHash
      match target with
      | none => .error .unauthorized
      | some target => revokeTarget db req.expected target

/-- the legacy check, outside any transaction -/
def legacyCheck (db : Db) (req : RevokeRequest) : Option MobileSession :=
  db.mobileSessions.rows.find? fun m => m.installationId == req.installationId &&
    req.expected.all (· == m.id) && verifyRefreshToken req.token m.refreshTokenHash

/-! ## Recovery -/

def maxRecoveryCandidates : ℕ := 64

/-- an empty secret of the request is `none` -/
structure RecoveryRequest where
  verifiedUser : User
  expectedUserId : ℕ
  installationId : ℕ
  expected : Option ℕ
  accessToken : Option Secret
  refreshToken : Option Secret
  revocationToken : Option Secret
  verifiedUntil : Option ℤ
  absenceOnly : Bool
deriving DecidableEq, Repr

def unresolved : AppError :=
  .conflict "The original mobile session cannot be safely identified or confirmed absent"

def capacityExceeded : AppError :=
  .conflict "Too many mobile sessions share this installation to recover safely"

/-- the part of a recovery before its transaction: the sessions of the installation with that refresh secret -/
def recoverCollect (db : Db) (req : RecoveryRequest) : Except AppError (List MobileSession) := do
  guardOr (req.verifiedUser.id == req.expectedUserId) .unauthorized
  guardOr (!req.verifiedUser.mustChangePassword) mustChange
  match req.refreshToken with
  | none => pure []
  | some token =>
    let candidates := db.mobileSessions.rows.filter fun m => m.installationId == req.installationId
    guardOr (decide (candidates.length ≤ maxRecoveryCandidates)) capacityExceeded
    pure (candidates.filter fun m => verifyRefreshToken token m.refreshTokenHash)

def recheckVerifiedUser (db : Db) (verified : User) : Except AppError Unit := do
  let current ← okOr (db.users.get verified.id) .unauthorized
  guardOr (current.passwordHash == verified.passwordHash && current.totpSecret == verified.totpSecret &&
    current.passwordChangedAt == verified.passwordChangedAt && current.username == verified.username &&
    current.role == verified.role) .unauthorized
  guardOr (!current.mustChangePassword) mustChange

def ensureOwner (req : RecoveryRequest) (target : MobileSession) : Except AppError ℕ := do
  guardOr (target.userId == req.expectedUserId && target.installationId == req.installationId) .unauthorized
  pure target.id

def addIdentity (db : Db) (req : RecoveryRequest) (id : ℕ) : Except AppError ℕ := do
  let target ← okOr (db.mobileSessions.get id) unresolved
  ensureOwner req target

/-- every session that a captured secret names -/
def resolveCapturedIdentities (db : Db) (req : RecoveryRequest) (refreshMatches : List MobileSession) :
    Except AppError (List ℕ) := do
  let access ← (db.sessions.rows.filter fun row => req.accessToken == some row.token).mapM fun row => do
    guardOr (row.userId == req.expectedUserId && row.source == .mobile) .unauthorized
    let id ← okOr row.mobileSessionId unresolved
    addIdentity db req id
  let secrets := req.refreshToken.toList ++ req.revocationToken.toList
  let stable ← (db.mobileSessions.rows.filter fun m => m.revocationTokenHash.any secrets.contains).mapM (ensureOwner req)
  let history ← (db.proofs.rows.filter fun proof => secrets.contains proof.tokenHash).mapM fun proof =>
    addIdentity db req proof.mobileSessionId
  let current ← (refreshMatches.filterMap fun v => (db.mobileSessions.get v.id).map fun m => (v, m)).mapM fun p => do
    let id ← ensureOwner req p.2
    pure (if p.2.refreshTokenHash == p.1.refreshTokenHash then some id else none)
  pure (access ++ stable ++ history ++ current.reduceOption)

/-- the sessions offered for selection; an error when some state of the installation belongs to none of them -/
def recoveryCandidates (db : Db) (req : RecoveryRequest) : Except AppError (List MobileSession) := do
  guardOr (!db.sessions.rows.any fun row => row.userId == req.expectedUserId && row.source == .mobile &&
    row.mobileSessionId.all fun id => (db.mobileSessions.get id).isNone) unresolved
  let candidates := db.mobileSessions.rows.filter fun m =>
    m.userId == req.expectedUserId && m.installationId == req.installationId
  guardOr (decide (candidates.length ≤ maxRecoveryCandidates)) capacityExceeded
  guardOr ((db.deviceTokens.rows ++ db.registrations.rows).all fun row =>
    row.userId != req.expectedUserId || row.installationId != req.installationId ||
      candidates.any fun m => m.id == row.mobileSessionId) unresolved
  pure candidates

inductive Recovered where
  | ok (db : Db)
  | alreadyAbsent
  | selectionRequired (candidates : List MobileSession)

def recoverTarget (db : Db) (id : ℕ) : Except AppError Recovered := do
  guardOr (db.mobileSessions.get id).isSome unresolved
  let db := ((db.deleteDeviceTokensOf id).deleteSessionsOf id).deleteRegistrationsOf id
  let db ← okOr ((db.deleteProofsOf id).deleteMobileSession id) .internal
  pure (.ok db)

/-- the transaction of a recovery -/
def recoverValidated (db : Db) (req : RecoveryRequest) (refreshMatches : List MobileSession) (now : ℤ) :
    Except AppError Recovered := do
  guardOr (req.verifiedUntil.all fun deadline => decide (now < deadline)) .unauthorized
  recheckVerifiedUser db req.verifiedUser
  let identities ← resolveCapturedIdentities db req refreshMatches
  guardOr (!(req.absenceOnly && !identities.isEmpty)) unresolved
  match req.expected with
  | some expected =>
    guardOr (identities.all (· == expected)) .unauthorized
    match db.mobileSessions.get expected with
    | some target =>
      let id ← ensureOwner req target
      recoverTarget db id
    | none =>
      guardOr (!hasOperationalMobileState db expected) unresolved
      pure .alreadyAbsent
  | none =>
    match identities.dedup with
    | [] =>
      let candidates ← recoveryCandidates db req
      pure (if candidates.isEmpty then .alreadyAbsent else .selectionRequired candidates)
    | [id] => recoverTarget db id
    | _ => .error unresolved

end ServerBee.Mobile
