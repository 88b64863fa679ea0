/-
What each request may do to the database.

A revocation, a recovery and the rest of the server only shrink it (`Shrinks`): mobile sessions keep their refresh hashes or
go, and no access session of a mobile session appears. A successful refresh gives its row a fresh secret and leaves one
access session that refers to it (`Rotated`). `Move` says the same of a step of the machine.
-/
import ServerBee.Mobile.Machine

namespace ServerBee.Mobile

open ServerBee.Lib

/-! ## Shrinking -/

/-- the foreign key from access sessions to mobile sessions -/
def Db.Refs (db : Db) : Prop :=
  ∀ row ∈ db.sessions, ∀ id, row.mobileSessionId = some id → ∃ m ∈ db.mobileSessions, m.id = id

structure Shrinks (db db' : Db) : Prop where
  mobile : ∀ m' ∈ db'.mobileSessions, ∃ m ∈ db.mobileSessions, m.id = m'.id ∧ m.refreshTokenHash = m'.refreshTokenHash
  session : ∀ row ∈ db'.sessions, row ∈ db.sessions ∨ row.mobileSessionId = none
  refs : db.Refs → db'.Refs

theorem Shrinks.refl (db : Db) : Shrinks db db := ⟨fun m hm => ⟨m, hm, rfl, rfl⟩, fun _ h => Or.inl h, id⟩

theorem Shrinks.trans {a b c : Db} (hab : Shrinks a b) (hbc : Shrinks b c) : Shrinks a c where
  mobile m hm := by
    obtain ⟨m', hm', hid, hhash⟩ := hbc.mobile m hm
    obtain ⟨m'', hm'', hid', hhash'⟩ := hab.mobile m' hm'
    exact ⟨m'', hm'', hid'.trans hid, hhash'.trans hhash⟩
  session row hrow := by
    rcases hbc.session row hrow with h | h
    · exact hab.session row h
    · exact Or.inr h
  refs h := hbc.refs (hab.refs h)

/-- access sessions end, whatever happens to the other tables -/
theorem Shrinks.of_sessions {db db' : Db} (hm : db'.mobileSessions = db.mobileSessions)
    (hs : ∀ row ∈ db'.sessions, row ∈ db.sessions) : Shrinks db db' where
  mobile m h := ⟨m, hm ▸ h, rfl, rfl⟩
  session row h := Or.inl (hs row h)
  refs h row hrow id hid := hm ▸ h row (hs row hrow) id hid

theorem deleteSessionsOf_shrinks (db : Db) (id : ℕ) : Shrinks db (db.deleteSessionsOf id) :=
  .of_sessions rfl fun _ h => (Table.mem_delete.1 h).1

theorem deleteDeviceTokensOf_shrinks (db : Db) (id : ℕ) : Shrinks db (db.deleteDeviceTokensOf id) :=
  .of_sessions rfl fun _ h => h

theorem deleteRegistrationsOf_shrinks (db : Db) (id : ℕ) : Shrinks db (db.deleteRegistrationsOf id) :=
  .of_sessions rfl fun _ h => h

theorem deleteProofsOf_shrinks (db : Db) (id : ℕ) : Shrinks db (db.deleteProofsOf id) :=
  .of_sessions rfl fun _ h => h

theorem deleteMobileSessions_shrinks {db db' : Db} {dead : ℕ → Bool} (h : db.deleteMobileSessions dead = some db') :
    Shrinks db db' := by
  unfold Db.deleteMobileSessions at h
  split_ifs at h with hfree
  cases h
  simp only [Bool.or_eq_true, not_or, Bool.not_eq_true, List.any_eq_false] at hfree
  refine ⟨fun m hm => ⟨m, (Table.mem_delete.1 hm).1, rfl, rfl⟩, fun _ h => Or.inl h, fun hrefs row hrow id hid => ?_⟩
  obtain ⟨m, hm, rfl⟩ := hrefs row hrow id hid
  have hlive := hfree.1 row hrow
  rw [hid, Option.any_some] at hlive
  exact ⟨m, Table.mem_delete.2 ⟨hm, hlive⟩, rfl⟩

theorem cascade_shrinks {db db' : Db} {id : ℕ} (h : deleteMobileSessionCascade db id = .ok db') : Shrinks db db' :=
  ((deleteSessionsOf_shrinks db id).trans (deleteDeviceTokensOf_shrinks _ id)).trans
    (deleteMobileSessions_shrinks (okOr_ok.1 h))

theorem revokeUser_shrinks {db db' : Db} {userId : ℕ} {keep : Option ℕ}
    (h : revokeUserMobileSessions db userId keep = .ok db') : Shrinks db db' := by
  unfold revokeUserMobileSessions at h
  refine Shrinks.trans ?_ (deleteMobileSessions_shrinks (okOr_ok.1 h))
  exact .of_sessions rfl fun _ h => (Table.mem_delete.1 h).1

theorem revokeTarget_shrinks {db db' : Db} {expected : Option ℕ} {target : MobileSession}
    (h : revokeTarget db expected target = .ok (.revoked db')) : Shrinks db db' := by
  unfold revokeTarget at h
  obtain ⟨_, -, h⟩ := bind_ok.1 h
  obtain ⟨db₁, hdel, h⟩ := bind_ok.1 h
  cases h
  exact ((deleteDeviceTokensOf_shrinks db _).trans (deleteSessionsOf_shrinks _ _)).trans
    (deleteMobileSessions_shrinks (okOr_ok.1 hdel))

/-- a pass that revokes ends in `revokeTarget` -/
theorem revokePass_revoked {db db' : Db} {req : RevokeRequest} {checked : Option (Option MobileSession)}
    (h : revokePass db req checked = .ok (.revoked db')) :
    ∃ target, revokeTarget db req.expected target = .ok (.revoked db') := by
  unfold revokePass at h
  obtain ⟨absent, -, h⟩ := bind_ok.1 h
  cases absent with
  | true => cases h
  | false =>
    simp only [Bool.false_eq_true, if_false] at h
    split at h
    · exact ⟨_, h⟩
    · split_ifs at h
      cases h
    · split at h
      · cases h
      · exact ⟨_, h⟩

theorem revokePass_shrinks {db db' : Db} {req : RevokeRequest} {checked : Option (Option MobileSession)}
    (h : revokePass db req checked = .ok (.revoked db')) : Shrinks db db' := by
  obtain ⟨target, h⟩ := revokePass_revoked h
  exact revokeTarget_shrinks h

theorem recoverTarget_shrinks {db db' : Db} {id : ℕ} (h : recoverTarget db id = .ok (.ok db')) : Shrinks db db' := by
  unfold recoverTarget at h
  obtain ⟨_, -, h⟩ := bind_ok.1 h
  obtain ⟨db₁, hdel, h⟩ := bind_ok.1 h
  cases h
  exact ((((deleteDeviceTokensOf_shrinks db id).trans (deleteSessionsOf_shrinks _ id)).trans
    (deleteRegistrationsOf_shrinks _ id)).trans (deleteProofsOf_shrinks _ id)).trans
    (deleteMobileSessions_shrinks (okOr_ok.1 hdel))

/-- a recovery that deletes ends in `recoverTarget` -/
theorem recoverValidated_deleted {db db' : Db} {req : RecoveryRequest} {refreshMatches : List MobileSession} {now : ℤ}
    (h : recoverValidated db req refreshMatches now = .ok (.ok db')) : ∃ id, recoverTarget db id = .ok (.ok db') := by
  unfold recoverValidated at h
  obtain ⟨_, -, h⟩ := bind_ok.1 h
  obtain ⟨_, -, h⟩ := bind_ok.1 h
  obtain ⟨identities, -, h⟩ := bind_ok.1 h
  obtain ⟨_, -, h⟩ := bind_ok.1 h
  split at h
  · obtain ⟨_, -, h⟩ := bind_ok.1 h
    split at h
    · obtain ⟨id, -, h⟩ := bind_ok.1 h
      exact ⟨id, h⟩
    · obtain ⟨_, -, h⟩ := bind_ok.1 h
      cases h
  · split at h
    · obtain ⟨candidates, -, h⟩ := bind_ok.1 h
      split_ifs at h <;> cases h
    · exact ⟨_, h⟩
    · cases h

theorem recoverValidated_shrinks {db db' : Db} {req : RecoveryRequest} {refreshMatches : List MobileSession} {now : ℤ}
    (h : recoverValidated db req refreshMatches now = .ok (.ok db')) : Shrinks db db' := by
  obtain ⟨id, h⟩ := recoverValidated_deleted h
  exact recoverTarget_shrinks h

/-! ## Rotation -/

theorem insertProof_some {db db' : Db} {proof : RevocationProof} (h : db.insertProof proof = some db') :
    db'.mobileSessions = db.mobileSessions ∧ db'.sessions = db.sessions := by
  unfold Db.insertProof at h
  split_ifs at h
  obtain ⟨proofs, -, rfl⟩ := Option.map_eq_some_iff.1 h
  exact ⟨rfl, rfl⟩

theorem bindProof_ok {db db' : Db} {current : MobileSession} {proof : Option Secret}
    (h : bindProof db current proof = .ok db') : db'.mobileSessions = db.mobileSessions ∧ db'.sessions = db.sessions := by
  unfold bindProof at h
  cases proof with
  | none =>
    cases h
    exact ⟨rfl, rfl⟩
  | some proof =>
    obtain ⟨_, -, h⟩ := bind_ok.1 h
    obtain ⟨_, -, h⟩ := bind_ok.1 h
    split_ifs at h
    · cases h
      exact ⟨rfl, rfl⟩
    · exact insertProof_some (okOr_ok.1 h)

theorem insertMobileSession_some {db db' : Db} {m : MobileSession} (h : db.insertMobileSession m = some db') :
    ∃ t, db.mobileSessions.insert m = some t ∧ db' = { db with mobileSessions := t } := by
  unfold Db.insertMobileSession at h
  split_ifs at h
  obtain ⟨t, ht, rfl⟩ := Option.map_eq_some_iff.1 h
  exact ⟨t, ht, rfl⟩

/-- an access session is inserted below its mobile session -/
theorem insertSession_some {db db' : Db} {row : AccessSession} (h : db.insertSession row = some db') :
    (∀ id, row.mobileSessionId = some id → ∃ m ∈ db.mobileSessions, m.id = id) ∧
      ∃ t, db.sessions.insert row = some t ∧ db' = { db with sessions := t } := by
  unfold Db.insertSession at h
  split_ifs at h with hok
  obtain ⟨t, ht, rfl⟩ := Option.map_eq_some_iff.1 h
  refine ⟨fun id hid => ?_, t, ht, rfl⟩
  rw [hid, Option.all_some, Bool.and_eq_true] at hok
  obtain ⟨m, hm⟩ := Option.isSome_iff_exists.1 hok.1
  exact ⟨m, Table.get_eq_some.1 hm⟩

/-- what a successful refresh of `old` leaves, in terms of the rows before it -/
structure Rotated (db db' : Db) (old : MobileSession) (fresh : ℕ) (response : MobileTokenResponse) : Prop where
  sessionId : response.mobileSessionId = old.id
  access : response.accessToken = .drawn fresh
  refresh : response.refreshToken = .drawn (fresh + 1)
  consumed : ∃ m ∈ db.mobileSessions, m.id = old.id ∧ m.refreshTokenHash = old.refreshTokenHash
  renewed : ∃ m ∈ db'.mobileSessions, m.id = old.id
  mobile : ∀ m ∈ db'.mobileSessions,
    m.id = old.id ∧ m.refreshTokenHash.secret = .drawn (fresh + 1) ∨ m.id ≠ old.id ∧ m ∈ db.mobileSessions
  kept : ∀ m ∈ db.mobileSessions, m.id ≠ old.id → m ∈ db'.mobileSessions
  session : ∃ issued : AccessSession, issued.mobileSessionId = some old.id ∧ issued.token = response.accessToken ∧
    ∀ row, row ∈ db'.sessions ↔ row ∈ db.sessions ∧ row.mobileSessionId ≠ some old.id ∨ row = issued

theorem consumeSecret_some {db : Db} {old current : MobileSession} {req : RefreshRequest} {hash : RefreshHash}
    {expiresAt now : ℤ} {rows : Table MobileSession.id}
    (h : consumeSecret db old req hash expiresAt now = some (rows, current)) :
    (∃ m ∈ db.mobileSessions, m.id = old.id ∧ m.refreshTokenHash = old.refreshTokenHash) ∧
      current.id = old.id ∧ current.refreshTokenHash = hash ∧
      ∀ k, rows.get k = if k = old.id then some current else db.mobileSessions.get k := by
  unfold consumeSecret at h
  dsimp only at h
  split_ifs at h with hstands
  obtain ⟨m, hget, hm⟩ := (Option.any_eq_true _ _).1 hstands
  obtain ⟨hmem, hid⟩ := Table.get_eq_some.1 hget
  obtain ⟨current₁, hcurrent, hset⟩ := Option.map_eq_some_iff.1 h
  have hget' := @Table.get_update _ _ MobileSession.id _ db.mobileSessions (old.stands req now) (.rotate hash expiresAt)
    fun _ _ => rfl
  rw [hget', hget, Option.map_some, if_pos hm, Option.some.injEq] at hcurrent
  subst hcurrent
  cases hset
  simp only [MobileSession.stands, Bool.and_eq_true, beq_iff_eq, decide_eq_true_eq] at hm
  refine ⟨⟨m, hmem, hid, hm.1.2⟩, hid, rfl, fun k => ?_⟩
  rw [Table.get_set, hget']
  show (if k = m.id then _ else _) = _
  by_cases hk : k = old.id
  · rw [if_pos (hk.trans hid.symm), if_pos hk, hk, hget, Option.map_some, Option.map_some]
  · rw [if_neg (fun h => hk (h.trans hid)), if_neg hk]
    cases hother : db.mobileSessions.get k with
    | none => rfl
    | some other =>
      obtain ⟨-, rfl⟩ := Table.get_eq_some.1 hother
      simp [MobileSession.stands, hk]

theorem refreshCommit_ok {config : MobileConfig} {db db' : Db} {old : MobileSession} {req : RefreshRequest} {fresh salt : ℕ}
    {now : ℤ} {response : MobileTokenResponse} (h : refreshCommit config db old req fresh salt now = .ok (db', response)) :
    Rotated db db' old fresh response := by
  unfold refreshCommit at h
  obtain ⟨⟨rows, current⟩, hconsume, h⟩ := bind_ok.1 h
  obtain ⟨user, -, h⟩ := bind_ok.1 h
  obtain ⟨_, -, h⟩ := bind_ok.1 h
  obtain ⟨_, -, h⟩ := bind_ok.1 h
  obtain ⟨db₁, hbind, h⟩ := bind_ok.1 h
  obtain ⟨hmobile₁, hsessions₁⟩ := bindProof_ok hbind
  obtain ⟨db₂, hproof, h⟩ := bind_ok.1 h
  obtain ⟨hmobile₂, hsessions₂⟩ := insertProof_some (okOr_ok.1 hproof)
  obtain ⟨db₃, hrow, h⟩ := bind_ok.1 h
  cases h
  obtain ⟨-, sessions, hinsert, rfl⟩ := insertSession_some (okOr_ok.1 hrow)
  have hmobile : db₂.mobileSessions = rows := hmobile₂.trans hmobile₁
  have hsessions : db₂.sessions = db.sessions := hsessions₂.trans hsessions₁
  obtain ⟨hconsumed, hid, hhash, hrows⟩ := consumeSecret_some (okOr_ok.1 hconsume)
  have hother : ∀ m, m.id ≠ old.id → (m ∈ rows ↔ m ∈ db.mobileSessions) := by
    intro m hm
    have hiff := hrows m.id
    rw [if_neg hm] at hiff
    constructor
    · intro h
      exact (Table.get_eq_some.1 (hiff ▸ Table.get_key h)).1
    · intro h
      exact (Table.get_eq_some.1 (hiff.trans (Table.get_key h))).1
  have hcurrent : current ∈ rows := (Table.get_eq_some.1 ((hrows old.id).trans (if_pos rfl))).1
  rw [← hmobile] at hother hcurrent
  refine ⟨hid, rfl, rfl, hconsumed, ⟨current, hcurrent, hid⟩, fun m hm => ?_, fun m hm hne => (hother m hne).2 hm, ?_⟩
  · by_cases hmid : m.id = old.id
    · have hm' := Table.mem_inj hm hcurrent (hmid.trans hid.symm)
      rw [hm', hhash]
      exact Or.inl ⟨hid, rfl⟩
    · exact Or.inr ⟨hmid, (hother m hmid).1 hm⟩
  · refine ⟨⟨fresh + 2, user.id, .drawn fresh, now + config.accessTtl, now, .mobile, some current.id⟩,
      congrArg some hid, rfl, fun row => ?_⟩
    rw [Table.mem_insert hinsert]
    show row ∈ db₂.sessions.delete _ ∨ _ ↔ _
    rw [Table.mem_delete, hsessions, hid]
    simp

/-! ## Steps -/

/-- a task that owes nothing to a half-done login; the secret that a refresh verified was presented -/
def St.Settled (s : St) : Task → Prop
  | .halfway _ _ => False
  | .verified old req => old.refreshTokenHash.secret = req.token ∧ s.knows req.token = true
  | _ => True

/-- what one step of the machine may do -/
inductive Move (config : MobileConfig) (s : St) : St → Prop
  | shrink {db : Db} {tasks : ℕ → Task} (hdb : Shrinks s.db db)
      (htasks : ∀ t, tasks t = s.tasks t ∨ s.Settled (tasks t)) : Move config s { s with db := db, tasks := tasks }
  | begin {t installationId salt : ℕ} {now : ℤ} {user : User} {mobileSessions : Table MobileSession.id}
      (h : s.db.mobileSessions.insert (loginMobileSession config user installationId s.fresh salt now) = some mobileSessions) :
      Move config s
        { s with
          db := { s.db with mobileSessions := mobileSessions }
          tasks := Function.update s.tasks t
            (.halfway (loginAccessSession config user s.fresh now) (loginResponse config user s.fresh))
          fresh := s.fresh + 5
          issued := (loginResponse config user s.fresh).secrets.map (fun secret => (secret, s.fresh + 3)) ++ s.issued }
  | finish {t : ℕ} {access : AccessSession} {response : MobileTokenResponse} {sessions : Table AccessSession.id}
      (ht : s.tasks t = .halfway access response)
      (hrefs : ∀ id, access.mobileSessionId = some id → ∃ m ∈ s.db.mobileSessions, m.id = id)
      (h : s.db.sessions.insert access = some sessions) :
      Move config s
        { s with
          db := { s.db with sessions := sessions }
          tasks := Function.update s.tasks t .idle
          revealed := response.secrets ++ s.revealed }
  | rotate {t : ℕ} {old : MobileSession} {req : RefreshRequest} {db : Db} {response : MobileTokenResponse}
      (ht : s.tasks t = .verified old req) (h : Rotated s.db db old s.fresh response) :
      Move config s
        { s with
          db := db
          tasks := Function.update s.tasks t .idle
          fresh := s.fresh + 3
          revealed := [response.accessToken, response.refreshToken] ++ s.revealed
          issued := [(response.accessToken, response.mobileSessionId), (response.refreshToken, response.mobileSessionId)] ++
            s.issued
          refreshed := (req.token, response) :: s.refreshed }
  | web {row : AccessSession} {sessions : Table AccessSession.id} (hrow : row.mobileSessionId = none)
      (h : s.db.sessions.insert row = some sessions) :
      Move config s
        { s with
          db := { s.db with sessions := sessions }
          fresh := s.fresh + 2
          revealed := .drawn (s.fresh + 1) :: s.revealed }

section Step

variable {C : Crates} {config : MobileConfig} {s : St}

theorem Move.same : Move config s s := .shrink (.refl s.db) fun _ => Or.inl rfl

theorem Move.write {db : Db} (hdb : Shrinks s.db db) : Move config s { s with db := db } :=
  .shrink hdb fun _ => Or.inl rfl

/-- a task is settled anew while the database shrinks -/
theorem Move.close {db : Db} {t : ℕ} {task : Task} (hdb : Shrinks s.db db) (htask : s.Settled task) :
    Move config s { s.goto t task with db := db } := by
  refine .shrink hdb fun t' => ?_
  by_cases ht : t' = t
  · subst ht
    have hself : (s.goto t' task).tasks t' = task := Function.update_self ..
    exact Or.inr (hself.symm ▸ htask)
  · exact Or.inl (Function.update_of_ne ht ..)

theorem Move.goto {t : ℕ} {task : Task} (htask : s.Settled task) : Move config s (s.goto t task) :=
  .close (.refl s.db) htask

theorem move_apply {commits : Bool} {result : Except AppError Db} (h : ∀ db, result = .ok db → Shrinks s.db db) :
    Move config s (s.apply commits result) := by
  cases result with
  | error e => exact .same
  | ok db =>
    cases commits with
    | false => exact .same
    | true => exact .write (h db rfl)

theorem move_close {t : ℕ} {commits : Bool} {result : Except AppError Db} (h : ∀ db, result = .ok db → Shrinks s.db db) :
    Move config s ((s.goto t .idle).apply commits result) := by
  cases result with
  | error e => exact .goto trivial
  | ok db =>
    cases commits with
    | false => exact .goto trivial
    | true => exact .close (h db rfl) trivial

theorem move_proceed {α : Type} {t : ℕ} {task : α → Task} {result : Except AppError α}
    (h : ∀ a, result = .ok a → s.Settled (task a)) : Move config s (s.proceed t task result) := by
  cases result with
  | error e => exact .goto trivial
  | ok a => exact .goto (h a rfl)

theorem move_endPass {t : ℕ} {req : RevokeRequest} {commits : Bool} {checked : Option (Option MobileSession)} :
    Move config s (s.endPass t req commits (revokePass s.db req checked)) := by
  cases h : revokePass s.db req checked with
  | error e => exact .goto trivial
  | ok pass =>
    cases pass with
    | alreadyAbsent => exact .goto trivial
    | legacy =>
      cases commits with
      | false => exact .goto trivial
      | true => exact .goto trivial
    | revoked db =>
      have hdb := revokePass_shrinks h
      show Move config s ((s.goto t .idle).apply commits (.ok db))
      exact move_close fun _ h' => Except.ok.inj h' ▸ hdb

theorem move_refresh {t : ℕ} {req : RefreshRequest} {now : ℤ} (hknown : s.knows req.token = true) :
    Move config s (s.proceed t (.verified · req) (refreshVerify C s.db req now)) := by
  refine move_proceed fun old h => ?_
  obtain ⟨_, -, h⟩ := bind_ok.1 h
  have hverify := List.find?_some (okOr_ok.1 h)
  simp only [Bool.and_eq_true, verifyRefreshToken, beq_iff_eq] at hverify
  exact ⟨hverify.2, hknown⟩

theorem move_recover {t : ℕ} {req : RecoveryRequest} {refreshMatches : List MobileSession} {now : ℤ} {commits : Bool} :
    Move config s
      (match Mobile.recoverValidated s.db req refreshMatches now with
      | .ok (.ok db) => (s.goto t .idle).apply commits (.ok db)
      | _ => s.goto t .idle) := by
  split
  · rename_i db h
    refine move_close fun db' hdb => ?_
    cases hdb
    exact recoverValidated_shrinks h
  · exact .goto trivial

/-- every step is a move -/
theorem step_move (op : Op) : Move config s (step C config s op) := by
  cases op with
  | login t username password totpCode => exact move_proceed fun _ _ => trivial
  | pair t userId => exact move_proceed fun _ _ => trivial
  | insertMobileSession t installationId salt now =>
    simp only [step]
    split
    · split
      · exact .goto trivial
      · rename_i db h
        obtain ⟨rows, hrows, rfl⟩ := insertMobileSession_some h
        exact .begin hrows
    · exact .same
  | insertSession t =>
    simp only [step]
    split
    · rename_i access response ht
      split
      · exact .goto trivial
      · rename_i db h
        obtain ⟨hrefs, rows, hrows, rfl⟩ := insertSession_some h
        exact .finish ht hrefs hrows
    · exact .same
  | refresh t req now =>
    simp only [step]
    split_ifs with hknown
    · exact move_refresh hknown
    · exact .same
  | rotate t salt now commits =>
    simp only [step]
    split
    · rename_i old req ht
      split
      · rename_i db response h
        exact .rotate ht (refreshCommit_ok h)
      · exact .goto trivial
    · exact .same
  | logout id commits => exact move_apply fun _ h => cascade_shrinks h
  | revokeDevice t id userId => exact move_proceed fun _ _ => trivial
  | deleteDevice t commits =>
    simp only [step]
    split
    · exact move_close fun _ h => cascade_shrinks h
    · exact .same
  | revokeWithCredential t req commits =>
    simp only [step]
    split_ifs
    · exact move_endPass
    · exact .same
  | legacyCheck t =>
    simp only [step]
    split
    · exact .goto trivial
    · exact .same
  | retryRevoke t commits =>
    simp only [step]
    split
    · exact move_endPass
    · exact .same
  | recover t req =>
    simp only [step]
    split_ifs
    · exact move_proceed fun _ _ => trivial
    · exact .same
  | recoverValidated t now commits =>
    simp only [step]
    split
    · exact move_recover
    · exact .same
  | users users => exact .write (.of_sessions rfl fun _ h => h)
  | devices deviceTokens registrations =>
    simp only [step]
    split_ifs
    · exact .write (.of_sessions rfl fun _ h => h)
    · exact .same
  | webLogin userId expiresAt now =>
    simp only [step]
    split
    · exact .same
    · rename_i db h
      obtain ⟨-, rows, hrows, rfl⟩ := insertSession_some h
      exact .web rfl hrows
  | endSessions ended => exact .write (.of_sessions rfl fun _ h => (Table.mem_delete.1 h).1)
  | revokeUser userId keep commits => exact move_apply fun _ h => revokeUser_shrinks h
  | reissue id now =>
    refine .write ⟨fun m hm => ?_, fun _ h => Or.inl h, fun hrefs row hrow k hk => ?_⟩
    · obtain ⟨m', hm', rfl⟩ := (Table.mem_update (p := fun m : MobileSession => m.id == id) (f := .reissue now) fun _ _ => rfl).1 hm
      refine ⟨m', hm', ?_⟩
      split_ifs <;> exact ⟨rfl, rfl⟩
    · obtain ⟨m, hm, rfl⟩ := hrefs row hrow k hk
      refine ⟨_, (Table.mem_update (p := fun m : MobileSession => m.id == id) (f := .reissue now) fun _ _ => rfl).2 ⟨m, hm, rfl⟩, ?_⟩
      split_ifs <;> rfl

end Step

end ServerBee.Mobile
