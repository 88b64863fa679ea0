/-
The machine of mobile sessions.

A request runs as a task that stops between its statements, so that any other request may run there: a login between
reading the user and its two inserts, a refresh between the Argon2 check and its transaction, a device revocation after
the ownership check, a credential revocation around its legacy check, a recovery before its transaction. A task that
starts a request gives up what it was doing. A transaction commits (`commits`) or leaves the database as it was.

Users, devices and web sessions change elsewhere; a password change is the edit of the user, the end of the other access
sessions, the end of the other mobile sessions and the new issue instant of the kept one.

A client presents a secret that it was handed or a text of its own: a secret that was drawn and not handed out is not
guessed.
-/
import ServerBee.Mobile.Model

namespace ServerBee.Mobile

open ServerBee.Lib

inductive Task where
  | idle
  | authenticated (user : User)
  /-- the mobile session is written, the access session is not -/
  | halfway (access : AccessSession) (response : MobileTokenResponse)
  | verified (old : MobileSession) (req : RefreshRequest)
  | owned (id : ℕ)
  /-- the writer lock is released for the legacy check -/
  | released (req : RevokeRequest)
  | checked (req : RevokeRequest) (verified : Option MobileSession)
  | matched (req : RecoveryRequest) (refreshMatches : List MobileSession)
deriving DecidableEq, Repr

/-- `revealed`, `issued` and `refreshed` are histories, newest first: the secrets handed to clients, the secrets drawn for
a mobile session, and the successful refreshes with the secret each consumed -/
structure St where
  db : Db
  tasks : ℕ → Task
  fresh : ℕ
  revealed : List Secret
  issued : List (Secret × ℕ)
  refreshed : List (Secret × MobileTokenResponse)

def St.init : St := ⟨⟨∅, ∅, ∅, ∅, ∅, ∅⟩, fun _ => .idle, 0, [], [], []⟩

inductive Op where
  | login (t : ℕ) (username password : String) (totpCode : Option String)
  | pair (t userId : ℕ)
  | insertMobileSession (t installationId salt : ℕ) (now : ℤ)
  | insertSession (t : ℕ)
  | refresh (t : ℕ) (req : RefreshRequest) (now : ℤ)
  | rotate (t salt : ℕ) (now : ℤ) (commits : Bool)
  | logout (id : ℕ) (commits : Bool)
  | revokeDevice (t id userId : ℕ)
  | deleteDevice (t : ℕ) (commits : Bool)
  | revokeWithCredential (t : ℕ) (req : RevokeRequest) (commits : Bool)
  | legacyCheck (t : ℕ)
  | retryRevoke (t : ℕ) (commits : Bool)
  | recover (t : ℕ) (req : RecoveryRequest)
  | recoverValidated (t : ℕ) (now : ℤ) (commits : Bool)
  /-- the users are edited elsewhere -/
  | users (users : Table User.id)
  /-- device tokens and registrations are written elsewhere -/
  | devices (deviceTokens registrations : Table Registration.installationId)
  | webLogin (userId : ℕ) (expiresAt now : ℤ)
  /-- access sessions end: web logout, expiry, a password change -/
  | endSessions (ended : AccessSession → Bool)
  | revokeUser (userId : ℕ) (keep : Option ℕ) (commits : Bool)
  /-- a kept session counts as issued now -/
  | reissue (id : ℕ) (now : ℤ)

def St.knows (s : St) : Secret → Bool
  | .text _ => true
  | .drawn n => s.revealed.contains (.drawn n)

def St.goto (s : St) (t : ℕ) (task : Task) : St := { s with tasks := Function.update s.tasks t task }

/-- the end of a transaction -/
def St.apply (s : St) (commits : Bool) : Except AppError Db → St
  | .ok db => if commits then { s with db := db } else s
  | .error _ => s

/-- the end of a request's first part: it goes on, or the request fails -/
def St.proceed {α : Type} (s : St) (t : ℕ) (task : α → Task) : Except AppError α → St
  | .ok a => s.goto t (task a)
  | .error _ => s.goto t .idle

def St.endPass (s : St) (t : ℕ) (req : RevokeRequest) (commits : Bool) : Except AppError Pass → St
  | .ok (.revoked db) => (s.goto t .idle).apply commits (.ok db)
  | .ok .legacy => s.goto t (if commits then .released req else .idle)
  | .ok .alreadyAbsent => s.goto t .idle
  | .error _ => s.goto t .idle

def MobileSession.reissue (now : ℤ) (m : MobileSession) : MobileSession := { m with createdAt := now }

def step (C : Crates) (config : MobileConfig) (s : St) : Op → St
  | .login t username password totpCode =>
    s.proceed t .authenticated (authenticate C s.db username password totpCode)
  | .pair t userId => s.proceed t .authenticated (okOr (s.db.users.get userId) (.badRequest "User not found"))
  | .insertMobileSession t installationId salt now =>
    match s.tasks t with
    | .authenticated user =>
      let row := loginMobileSession config user installationId s.fresh salt now
      match s.db.insertMobileSession row with
      | none => s.goto t .idle
      | some db =>
        let response := loginResponse config user s.fresh
        { s.goto t (.halfway (loginAccessSession config user s.fresh now) response) with
          db := db
          fresh := s.fresh + 5
          issued := response.secrets.map (fun secret => (secret, row.id)) ++ s.issued }
    | _ => s
  | .insertSession t =>
    match s.tasks t with
    | .halfway access response =>
      match s.db.insertSession access with
      | none => s.goto t .idle
      | some db => { s.goto t .idle with db := db, revealed := response.secrets ++ s.revealed }
    | _ => s
  | .refresh t req now =>
    if s.knows req.token then s.proceed t (.verified · req) (refreshVerify C s.db req now) else s
  | .rotate t salt now commits =>
    match s.tasks t with
    | .verified old req =>
      match refreshCommit config s.db old req s.fresh salt now, commits with
      | .ok (db, response), true =>
        { s.goto t .idle with
          db := db
          fresh := s.fresh + 3
          revealed := [response.accessToken, response.refreshToken] ++ s.revealed
          issued := [(response.accessToken, response.mobileSessionId), (response.refreshToken, response.mobileSessionId)] ++
            s.issued
          refreshed := (req.token, response) :: s.refreshed }
      | _, _ => s.goto t .idle
    | _ => s
  | .logout id commits => s.apply commits (deleteMobileSessionCascade s.db id)
  | .revokeDevice t id userId => s.proceed t (fun _ => .owned id) (ownsDevice s.db id userId)
  | .deleteDevice t commits =>
    match s.tasks t with
    | .owned id => (s.goto t .idle).apply commits (deleteMobileSessionCascade s.db id)
    | _ => s
  | .revokeWithCredential t req commits =>
    if s.knows req.token then s.endPass t req commits (revokePass s.db req none) else s
  | .legacyCheck t =>
    match s.tasks t with
    | .released req => s.goto t (.checked req (Mobile.legacyCheck s.db req))
    | _ => s
  | .retryRevoke t commits =>
    match s.tasks t with
    | .checked req verified => s.endPass t req commits (revokePass s.db req (some verified))
    | _ => s
  | .recover t req =>
    if (req.accessToken.toList ++ req.refreshToken.toList ++ req.revocationToken.toList).all s.knows then
      s.proceed t (.matched req) (recoverCollect s.db req)
    else s
  | .recoverValidated t now commits =>
    match s.tasks t with
    | .matched req refreshMatches =>
      match Mobile.recoverValidated s.db req refreshMatches now with
      | .ok (.ok db) => (s.goto t .idle).apply commits (.ok db)
      | _ => s.goto t .idle
    | _ => s
  | .users users => { s with db := { s.db with users := users } }
  | .devices deviceTokens registrations =>
    if (deviceTokens.rows ++ registrations.rows).all fun row => (s.db.mobileSessions.get row.mobileSessionId).isSome then
      { s with db := { s.db with deviceTokens := deviceTokens, registrations := registrations } }
    else s
  | .webLogin userId expiresAt now =>
    match s.db.insertSession ⟨s.fresh, userId, .drawn (s.fresh + 1), expiresAt, now, .web, none⟩ with
    | none => s
    | some db => { s with db := db, fresh := s.fresh + 2, revealed := .drawn (s.fresh + 1) :: s.revealed }
  | .endSessions ended => { s with db := { s.db with sessions := s.db.sessions.delete ended } }
  | .revokeUser userId keep commits => s.apply commits (revokeUserMobileSessions s.db userId keep)
  | .reissue id now =>
    { s with db := { s.db with
        mobileSessions := s.db.mobileSessions.update (fun m => m.id == id) (.reissue now) fun _ _ => rfl } }

def run (C : Crates) (config : MobileConfig) (s : St) (ops : List Op) : St := ops.foldl (step C config) s

end ServerBee.Mobile
