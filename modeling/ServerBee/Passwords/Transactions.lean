/-
What the transactions of a refresh, of a password change and of a logout leave of the sessions.
-/
import ServerBee.Mobile.Effects
import ServerBee.Passwords.Model

namespace ServerBee.Passwords

open ServerBee.Lib ServerBee.Mobile

variable {config : MobileConfig} {db db' : Db}

/-- a refresh of `m` -/
structure Refreshed (db db' : Db) (m : MobileSession) : Prop where
  old : m ∈ db.mobileSessions
  users : db'.users = db.users
  mobile : ∀ m' ∈ db'.mobileSessions, m'.id = m.id ∧ m'.userId = m.userId ∧ m'.createdAt = m.createdAt ∨ m' ∈ db.mobileSessions
  stays : ∀ m₀ ∈ db.mobileSessions, ∃ m' ∈ db'.mobileSessions, m'.id = m₀.id ∧ m'.userId = m₀.userId
  session : ∀ row ∈ db'.sessions, row ∈ db.sessions ∨ row.mobileSessionId = some m.id ∧ row.userId = m.userId
  accepted : ∀ user changed, db.users.get m.userId = some user → user.passwordChangedAt = some changed → changed ≤ m.createdAt

theorem insertProof_users {proof : RevocationProof} (h : db.insertProof proof = some db') : db'.users = db.users := by
  unfold Db.insertProof at h
  split_ifs at h
  obtain ⟨t, -, rfl⟩ := Option.map_eq_some_iff.1 h
  rfl

theorem bindProof_users {current : MobileSession} {proof : Option Secret} (h : bindProof db current proof = .ok db') :
    db'.users = db.users := by
  unfold bindProof at h
  cases proof with
  | none =>
    cases h
    rfl
  | some proof =>
    obtain ⟨_, -, h⟩ := bind_ok.1 h
    obtain ⟨_, -, h⟩ := bind_ok.1 h
    split_ifs at h
    · cases h
      rfl
    · exact insertProof_users (okOr_ok.1 h)

theorem consumeSecret_same {old current : MobileSession} {req : RefreshRequest} {hash : RefreshHash} {expiresAt now : ℤ}
    {rows : Table MobileSession.id} (h : consumeSecret db old req hash expiresAt now = some (rows, current)) :
    ∃ m ∈ db.mobileSessions, current.id = m.id ∧ current.userId = m.userId ∧ current.createdAt = m.createdAt ∧
      old.id = m.id ∧ old.userId = m.userId := by
  unfold consumeSecret at h
  dsimp only at h
  split_ifs at h with hstands
  obtain ⟨m, hget, hm⟩ := (Option.any_eq_true _ _).1 hstands
  obtain ⟨hmem, hid⟩ := Table.get_eq_some.1 hget
  obtain ⟨current₁, hcurrent, hset⟩ := Option.map_eq_some_iff.1 h
  have hget' := @Table.get_update _ _ MobileSession.id _ db.mobileSessions (old.stands req now) (.rotate hash expiresAt)
    fun _ _ => rfl
  rw [hget', hget, Option.map_some, if_pos hm, Option.some.injEq] at hcurrent
  subst hcurrent
  cases hset
  simp only [MobileSession.stands, Bool.and_eq_true, beq_iff_eq] at hm
  exact ⟨m, hmem, rfl, rfl, rfl, hid.symm, hm.1.1.1.2.symm⟩

theorem refreshCommit_refreshed {old : MobileSession} {req : RefreshRequest} {fresh salt : ℕ} {now : ℤ}
    {response : MobileTokenResponse} (h : refreshCommit config db old req fresh salt now = .ok (db', response)) :
    ∃ m, Refreshed db db' m ∧ m.id = old.id ∧ m.userId = old.userId := by
  unfold refreshCommit at h
  obtain ⟨⟨rows, current⟩, hconsume, h⟩ := bind_ok.1 h
  obtain ⟨user, huser, h⟩ := bind_ok.1 h
  obtain ⟨_, -, h⟩ := bind_ok.1 h
  obtain ⟨_, hguard, h⟩ := bind_ok.1 h
  obtain ⟨db₁, hbind, h⟩ := bind_ok.1 h
  obtain ⟨hmobile₁, hsessions₁⟩ := bindProof_ok hbind
  obtain ⟨db₂, hproof, h⟩ := bind_ok.1 h
  obtain ⟨hmobile₂, hsessions₂⟩ := insertProof_some (okOr_ok.1 hproof)
  obtain ⟨db₃, hrow, h⟩ := bind_ok.1 h
  cases h
  obtain ⟨-, sessions, hinsert, rfl⟩ := insertSession_some (okOr_ok.1 hrow)
  obtain ⟨m, hm, hid, huserId, hcreated, hold, holdUser⟩ := consumeSecret_same (okOr_ok.1 hconsume)
  obtain ⟨-, -, -, hrows⟩ := consumeSecret_some (okOr_ok.1 hconsume)
  have hmobile : db₂.mobileSessions = rows := hmobile₂.trans hmobile₁
  have hbound := bindProof_users hbind
  have husers : db₂.users = db.users := (insertProof_users (okOr_ok.1 hproof)).trans hbound
  have hget := okOr_ok.1 huser
  have huid : user.id = m.userId := (Table.get_eq_some.1 hget).2.trans huserId
  refine ⟨m, ⟨hm, husers, ?_, ?_, ?_, ?_⟩, hold.symm, holdUser.symm⟩
  · intro m' hm'
    have hm'' : m' ∈ rows := hmobile ▸ hm'
    have hrow := hrows m'.id
    rw [Table.get_key hm''] at hrow
    split_ifs at hrow
    · obtain rfl := Option.some.inj hrow
      exact Or.inl ⟨hid, huserId, hcreated⟩
    · exact Or.inr (Table.get_eq_some.1 hrow.symm).1
  · intro m₀ hm₀
    by_cases heq : m₀.id = old.id
    · have hcur : current ∈ rows := (Table.get_eq_some.1 ((hrows old.id).trans (if_pos rfl))).1
      have hsame : m₀ = m := Table.mem_inj hm₀ hm (heq.trans hold)
      refine ⟨current, ?_, by rw [hsame, hid], by rw [hsame, huserId]⟩
      show current ∈ db₂.mobileSessions
      rw [hmobile]
      exact hcur
    · refine ⟨m₀, ?_, rfl, rfl⟩
      show m₀ ∈ db₂.mobileSessions
      rw [hmobile]
      exact (Table.get_eq_some.1 ((hrows m₀.id).trans ((if_neg heq).trans (Table.get_key hm₀)))).1
  · intro row hrow
    rcases (Table.mem_insert hinsert).1 hrow with hrow | rfl
    · have hmem := (Table.mem_delete.1 hrow).1
      rw [hsessions₂, hsessions₁] at hmem
      exact Or.inl hmem
    · exact Or.inr ⟨congrArg some hid, huid⟩
  · intro user' changed huser' hchanged
    rw [← huserId] at huser'
    cases hget.symm.trans huser'
    rw [hchanged] at hguard
    rw [← hcreated]
    simpa using guardOr_ok.1 hguard

/-- a revocation leaves the kept session and those of other users -/
theorem revokeUser_ok {userId : ℕ} {keep : Option ℕ} (h : revokeUserMobileSessions db userId keep = .ok db') :
    db'.users = db.users ∧
      (∀ m, m ∈ db'.mobileSessions ↔ m ∈ db.mobileSessions ∧ (keep = some m.id ∨ m.userId ≠ userId)) ∧
      (∀ row ∈ db'.sessions, row ∈ db.sessions) ∧
      ∀ row ∈ db.sessions, row.mobileSessionId = keep → row ∈ db'.sessions := by
  unfold revokeUserMobileSessions at h
  dsimp only at h
  have hdeleted := okOr_ok.1 h
  unfold Db.deleteMobileSessions at hdeleted
  split_ifs at hdeleted
  cases hdeleted
  refine ⟨rfl, fun m => ?_, fun row hrow => (Table.mem_delete.1 hrow).1, fun row hrow hkeep => Table.mem_delete.2 ⟨hrow, ?_⟩⟩
  · rw [Table.mem_delete]
    refine and_congr_right fun hm => ?_
    have hget : db.mobileSessions.get m.id = some m := Table.get_key hm
    dsimp only
    rw [hget]
    cases keep with
    | none => simp
    | some id => by_cases hu : m.userId = userId <;> simp [hu]
  · rw [hkeep]
    cases keep with
    | none => rfl
    | some id =>
      cases hget : db.mobileSessions.get id with
      | none => simp [hget]
      | some m =>
        obtain ⟨-, rfl⟩ := Table.get_eq_some.1 hget
        simp [hget]

/-- a committed change -/
structure Changed (db db' : Db) (userId : ℕ) (newHash : String) (now : ℤ) (token : Option Secret) (keep : Option ℕ) : Prop where
  users : db'.users = setPassword db.users userId newHash now
  mobile : ∀ m' ∈ db'.mobileSessions, ∃ m ∈ db.mobileSessions, m'.id = m.id ∧ m'.userId = m.userId ∧
    (keep = some m.id ∧ m'.createdAt = now ∨ m.userId ≠ userId ∧ m'.createdAt = m.createdAt)
  kept : ∀ m ∈ db.mobileSessions, keep = some m.id → m.reissue now ∈ db'.mobileSessions
  refs : db.Refs → db'.Refs
  session : ∀ row ∈ db'.sessions, row ∈ db.sessions ∧ (row.userId = userId → token = some row.token)
  keptSession : ∀ row ∈ db.sessions, (row.userId = userId → token = some row.token) → row.mobileSessionId = keep →
    row ∈ db'.sessions

theorem changeCommit_changed {userId : ℕ} {newHash : String} {now : ℤ} {token : Option Secret} {keep : Option ℕ}
    (h : changeCommit db userId newHash now token keep = .ok db') : Changed db db' userId newHash now token keep := by
  unfold changeCommit at h
  obtain ⟨_, -, h⟩ := bind_ok.1 h
  obtain ⟨db₁, hrevoke, h⟩ := bind_ok.1 h
  cases h
  obtain ⟨husers, hmobile, hsessions, hkept⟩ := revokeUser_ok hrevoke
  have hreissue : ∀ m' : MobileSession, m' ∈ db₁.mobileSessions.update (fun m => keep == some m.id) (.reissue now) (fun _ _ => rfl) ↔
      ∃ m ∈ db₁.mobileSessions, (if keep == some m.id then m.reissue now else m) = m' := fun _ => Table.mem_update _
  refine ⟨husers, ?_, ?_, ?_, ?_, ?_⟩
  · intro m' hm'
    obtain ⟨m, hm, rfl⟩ := (hreissue m').1 hm'
    obtain ⟨hm, hlive⟩ := (hmobile m).1 hm
    refine ⟨m, hm, ?_⟩
    by_cases hkeep : keep = some m.id
    · simp [hkeep, MobileSession.reissue]
    · simp [hkeep, hlive.resolve_left hkeep]
  · intro m hm hkeep
    refine (hreissue _).2 ⟨m, (hmobile m).2 ⟨hm, Or.inl hkeep⟩, ?_⟩
    rw [hkeep, beq_self_eq_true, if_pos rfl]
  · intro hrefs row hrow id hid
    obtain ⟨m, hm, rfl⟩ := (revokeUser_shrinks hrevoke).refs (fun row hrow => hrefs row (Table.mem_delete.1 hrow).1) row hrow id hid
    refine ⟨_, (hreissue _).2 ⟨m, hm, rfl⟩, ?_⟩
    split_ifs <;> rfl
  · intro row hrow
    obtain ⟨hrow, hspared⟩ := Table.mem_delete.1 (hsessions row hrow)
    refine ⟨hrow, fun hu => ?_⟩
    rw [hu, beq_self_eq_true, Bool.true_and] at hspared
    cases token with
    | none => cases hspared
    | some token => simpa using hspared
  · intro row hrow hspared hkeep
    refine hkept row (Table.mem_delete.2 ⟨hrow, ?_⟩) hkeep
    by_cases hu : row.userId = userId
    · rw [hspared hu, hu]
      simp
    · simp [hu]

/-- a logout leaves the sessions of the others -/
theorem cascade_ok {id : ℕ} (h : deleteMobileSessionCascade db id = .ok db') :
    db'.users = db.users ∧ (∀ m ∈ db'.mobileSessions, m ∈ db.mobileSessions) ∧ ∀ row ∈ db'.sessions, row ∈ db.sessions := by
  have hdeleted := okOr_ok.1 h
  unfold Db.deleteMobileSession Db.deleteMobileSessions at hdeleted
  split_ifs at hdeleted
  cases hdeleted
  exact ⟨rfl, fun m hm => (Table.mem_delete.1 hm).1, fun row hrow => (Table.mem_delete.1 hrow).1⟩

end ServerBee.Passwords
