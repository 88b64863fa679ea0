/-
Password changes beside logins and refreshes (`service/auth.rs`: `change_password`, `login`, `create_web_session`;
`service/mobile_auth.rs`: `login_for_user`, `refresh`).

A request is a program of statements that interleave with those of others; a transaction is one step, which can fail to commit. A
password change reads its clock before it looks up the session to keep. The epoch of a user counts the changes that have been
committed; a session has the epoch in which the password behind it was proved. Epochs are histories. The write of a validation,
which moves the expiry of a web session, is left out.
-/
import ServerBee.Lib.Run
import ServerBee.Mobile.Machine

namespace ServerBee.Passwords

open ServerBee.Lib ServerBee.Mobile

def minPasswordLen : ℕ := 8

inductive Task where
  | idle
  /-- a web login has verified the password -/
  | webVerified (user : User) (epoch : ℕ)
  | mobileVerified (user : User) (epoch : ℕ)
  /-- the mobile session is written, the access session is not -/
  | halfway (access : AccessSession)
  | refreshing (old : MobileSession) (req : RefreshRequest)
  /-- `own` is a history: the mobile session of the caller's token when the call began -/
  | changing (user : User) (newHash : String) (now : ℤ) (token : Option Secret) (own : Option ℕ)
  | resolved (user : User) (newHash : String) (now : ℤ) (token : Option Secret) (own keep : Option ℕ)
deriving DecidableEq, Repr

/-- `epoch` is of a user, `webEpoch` of an access session and `mobileEpoch` of a mobile session -/
structure State where
  db : Db
  tasks : ℕ → Task
  fresh : ℕ
  epoch : ℕ → ℕ
  webEpoch : ℕ → ℕ
  mobileEpoch : ℕ → ℕ

def State.init (users : Table User.id) : State :=
  ⟨⟨users, ∅, ∅, ∅, ∅, ∅⟩, fun _ => .idle, 0, fun _ => 0, fun _ => 0, fun _ => 0⟩

def State.goto (s : State) (t : ℕ) (task : Task) : State := { s with tasks := Function.update s.tasks t task }

/-- a read that goes on, or fails -/
def State.proceed {α : Type} (s : State) (t : ℕ) (task : α → Task) : Except AppError α → State
  | .ok a => s.goto t (task a)
  | .error _ => s.goto t .idle

/-! ## Validation -/

/-- the row of an access token -/
def sessionOf (db : Db) (token : Secret) : Option AccessSession := db.sessions.rows.find? fun row => row.token == token

def validateSession (db : Db) (token : Secret) (now : ℤ) : Option (User × AccessSession) :=
  (sessionOf db token).bind fun row =>
    if row.expiresAt < now then none else (db.users.get row.userId).map fun user => (user, row)

/-! ## The change -/

/-- the checks of `change_password` on the row that it reads -/
def checkChange (C : Crates) (db : Db) (userId : ℕ) (oldPassword newPassword : String) : Except AppError User := do
  let user ← okOr (db.users.get userId) (.notFound "User not found")
  guardOr (C.verifyPassword oldPassword user.passwordHash) (.badRequest "Current password is incorrect")
  guardOr (decide (minPasswordLen ≤ newPassword.length)) (.validation "Password must be at least 8 characters")
  pure user

def mobileSessionOf (db : Db) (token : Option Secret) : Option ℕ :=
  token.bind fun token => (sessionOf db token).bind AccessSession.mobileSessionId

def setPassword (users : Table User.id) (userId : ℕ) (newHash : String) (now : ℤ) : Table User.id :=
  users.update (fun user => user.id == userId)
    (fun user => { user with passwordHash := newHash, passwordChangedAt := some now }) fun _ _ => rfl

/-- the transaction -/
def changeCommit (db : Db) (userId : ℕ) (newHash : String) (now : ℤ) (token : Option Secret) (keep : Option ℕ) :
    Except AppError Db := do
  guardOr (db.users.get userId).isSome .internal
  let db ← revokeUserMobileSessions { db with
    users := setPassword db.users userId newHash now
    sessions := db.sessions.delete fun row => row.userId == userId && token.all (· != row.token) } userId keep
  pure { db with mobileSessions := db.mobileSessions.update (fun m => keep == some m.id) (.reissue now) fun _ _ => rfl }

/-! ## Steps -/

inductive Op where
  | login (t : ℕ) (username password : String) (totpCode : Option String)
  | createWebSession (t : ℕ) (ttl now : ℤ)
  | mobileLogin (t : ℕ) (username password : String) (totpCode : Option String)
  | insertMobileSession (t installationId salt : ℕ) (now : ℤ)
  | insertSession (t : ℕ)
  | refresh (t : ℕ) (req : RefreshRequest) (now : ℤ)
  | rotate (t salt : ℕ) (now : ℤ) (commits : Bool)
  /-- with the hash that is drawn for the new password -/
  | changePassword (t userId : ℕ) (oldPassword newPassword newHash : String) (token : Option Secret) (now : ℤ)
  | resolveKeep (t : ℕ)
  | commitChange (t : ℕ) (commits : Bool)
  /-- web logout and expiry -/
  | endSessions (ended : AccessSession → Bool)
  | logout (id : ℕ) (commits : Bool)

def step (C : Crates) (config : MobileConfig) (s : State) : Op → State
  | .login t username password totpCode =>
    s.proceed t (fun user => .webVerified user (s.epoch user.id)) (validateCredentials C s.db username password totpCode)
  | .createWebSession t ttl now =>
    match s.tasks t with
    | .webVerified user epoch =>
      match s.db.insertSession ⟨s.fresh, user.id, .drawn (s.fresh + 1), now + ttl, now, .web, none⟩ with
      | none => s.goto t .idle
      | some db => { s.goto t .idle with
          db := db
          fresh := s.fresh + 2
          webEpoch := Function.update s.webEpoch s.fresh epoch }
    | _ => s
  | .mobileLogin t username password totpCode =>
    s.proceed t (fun user => .mobileVerified user (s.epoch user.id)) (authenticate C s.db username password totpCode)
  | .insertMobileSession t installationId salt now =>
    match s.tasks t with
    | .mobileVerified user epoch =>
      match s.db.insertMobileSession (loginMobileSession config user installationId s.fresh salt now) with
      | none => s.goto t .idle
      | some db => { s.goto t (.halfway (loginAccessSession config user s.fresh now)) with
          db := db
          fresh := s.fresh + 5
          mobileEpoch := Function.update s.mobileEpoch (s.fresh + 3) epoch }
    | _ => s
  | .insertSession t =>
    match s.tasks t with
    | .halfway access =>
      match s.db.insertSession access with
      | none => s.goto t .idle
      | some db => { s.goto t .idle with db := db }
    | _ => s
  | .refresh t req now => s.proceed t (.refreshing · req) (refreshVerify C s.db req now)
  | .rotate t salt now commits =>
    match s.tasks t with
    | .refreshing old req =>
      match refreshCommit config s.db old req s.fresh salt now, commits with
      | .ok (db, _), true => { s.goto t .idle with db := db, fresh := s.fresh + 3 }
      | _, _ => s.goto t .idle
    | _ => s
  | .changePassword t userId oldPassword newPassword newHash token now =>
    s.proceed t (fun user => .changing user newHash now token (mobileSessionOf s.db token))
      (checkChange C s.db userId oldPassword newPassword)
  | .resolveKeep t =>
    match s.tasks t with
    | .changing user newHash now token own => s.goto t (.resolved user newHash now token own (mobileSessionOf s.db token))
    | _ => s
  | .commitChange t commits =>
    match s.tasks t with
    | .resolved user newHash now token _ keep =>
      match changeCommit s.db user.id newHash now token keep, commits with
      | .ok db, true => { s.goto t .idle with
          db := db
          epoch := Function.update s.epoch user.id (s.epoch user.id + 1)
          -- the caller's session counts as proved now
          webEpoch := fun id =>
            if (db.sessions.get id).any fun row => row.userId == user.id && token == some row.token then s.epoch user.id + 1
            else s.webEpoch id
          mobileEpoch := fun id =>
            if keep == some id && (db.mobileSessions.get id).any (·.userId == user.id) then s.epoch user.id + 1
            else s.mobileEpoch id }
      | _, _ => s.goto t .idle
    | _ => s
  | .endSessions ended => { s with db := { s.db with sessions := s.db.sessions.delete ended } }
  | .logout id commits =>
    match deleteMobileSessionCascade s.db id, commits with
    | .ok db, true => { s with db := db }
    | _, _ => s

end ServerBee.Passwords
