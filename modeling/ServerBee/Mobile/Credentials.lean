/-
Deletion credentials name one session (`revoke_with_credential_for_session`).

A secret names the sessions that its hash finds, as their revocation token or as a proof (`Db.Names`). A login names its new
session by a new secret; a refresh names its own session, by the secret it consumes and by a proof that names no other; every
other step takes names away (`Credits`). So a secret never names two sessions, nor one that it was not issued for.
-/
import ServerBee.Mobile.SingleUse

namespace ServerBee.Mobile

open ServerBee.Lib

/-! ## One session is deleted -/

/-- the row of the session has gone, and every row that refers to it; nothing else -/
structure Deleted (db db' : Db) (id : ℕ) : Prop where
  mobile : ∀ m, m ∈ db'.mobileSessions ↔ m ∈ db.mobileSessions ∧ m.id ≠ id
  session : ∀ row, row ∈ db'.sessions ↔ row ∈ db.sessions ∧ row.mobileSessionId ≠ some id
  deviceToken : ∀ row, row ∈ db'.deviceTokens ↔ row ∈ db.deviceTokens ∧ row.mobileSessionId ≠ id
  registration : ∀ row, row ∈ db'.registrations ↔ row ∈ db.registrations ∧ row.mobileSessionId ≠ id
  proof : ∀ p, p ∈ db'.proofs ↔ p ∈ db.proofs ∧ p.mobileSessionId ≠ id
  users : db'.users = db.users

/-- the rows that refer to the session are deleted first -/
theorem deleteMobileSession_deleted {db db₁ db' : Db} {id : ℕ} (h : db₁.deleteMobileSession id = some db')
    (hmobile : db₁.mobileSessions = db.mobileSessions)
    (hsession : db₁.sessions = db.sessions.delete fun row => row.mobileSessionId == some id)
    (htoken : db₁.deviceTokens = db.deviceTokens.delete fun row => row.mobileSessionId == id)
    (hregistration : ∀ row, row.mobileSessionId ≠ id → (row ∈ db₁.registrations ↔ row ∈ db.registrations))
    (hproof : ∀ p, p.mobileSessionId ≠ id → (p ∈ db₁.proofs ↔ p ∈ db.proofs)) (husers : db₁.users = db.users) :
    Deleted db db' id := by
  unfold Db.deleteMobileSession Db.deleteMobileSessions at h
  split_ifs at h
  cases h
  refine ⟨fun m => ?_, fun row => ?_, fun row => ?_, fun row => ?_, fun p => ?_, husers⟩
  · show m ∈ db₁.mobileSessions.delete _ ↔ _
    rw [Table.mem_delete, hmobile, beq_eq_false_iff_ne]
  · show row ∈ db₁.sessions ↔ _
    rw [hsession, Table.mem_delete, beq_eq_false_iff_ne]
  · show row ∈ db₁.deviceTokens ↔ _
    rw [htoken, Table.mem_delete, beq_eq_false_iff_ne]
  · show row ∈ db₁.registrations.delete _ ↔ _
    rw [Table.mem_delete, beq_eq_false_iff_ne]
    exact and_congr_left fun hne => hregistration row hne
  · show p ∈ db₁.proofs.delete _ ↔ _
    rw [Table.mem_delete, beq_eq_false_iff_ne]
    exact and_congr_left fun hne => hproof p hne

theorem revokeTarget_deleted {db db' : Db} {expected : Option ℕ} {target : MobileSession}
    (h : revokeTarget db expected target = .ok (.revoked db')) :
    Deleted db db' target.id ∧ ∀ id, expected = some id → id = target.id := by
  unfold revokeTarget at h
  obtain ⟨_, hexpected, h⟩ := bind_ok.1 h
  obtain ⟨db₁, hdel, h⟩ := bind_ok.1 h
  cases h
  refine ⟨deleteMobileSession_deleted (okOr_ok.1 hdel) rfl rfl rfl (fun _ _ => Iff.rfl) (fun _ _ => Iff.rfl) rfl, ?_⟩
  rintro id rfl
  simpa using guardOr_ok.1 hexpected

theorem recoverTarget_deleted {db db' : Db} {id : ℕ} (h : recoverTarget db id = .ok (.ok db')) :
    Deleted db db' id ∧ ∃ m ∈ db.mobileSessions, m.id = id := by
  unfold recoverTarget at h
  obtain ⟨_, hrow, h⟩ := bind_ok.1 h
  obtain ⟨db₁, hdel, h⟩ := bind_ok.1 h
  cases h
  obtain ⟨m, hm⟩ := Option.isSome_iff_exists.1 (guardOr_ok.1 hrow)
  refine ⟨deleteMobileSession_deleted (okOr_ok.1 hdel) rfl rfl rfl (fun row hne => ?_) (fun p hne => ?_) rfl, m,
    Table.get_eq_some.1 hm⟩
  · show row ∈ db.registrations.delete _ ↔ _
    rw [Table.mem_delete, beq_eq_false_iff_ne, and_iff_left hne]
  · show p ∈ db.proofs.delete _ ↔ _
    rw [Table.mem_delete, beq_eq_false_iff_ne, and_iff_left hne]

/-! ## The revocation -/

/-- the row that a pass of the revocation deletes: named by the secret, or found by the legacy check and unchanged since -/
structure PassTarget (db : Db) (req : RevokeRequest) (checked : Option (Option MobileSession)) (target : MobileSession) : Prop where
  row : target ∈ db.mobileSessions
  installation : target.installationId = req.installationId
  found : credentialMatches db req.token target = true ∨
    ∃ v, checked = some (some v) ∧ target.id = v.id ∧ target.refreshTokenHash = v.refreshTokenHash

theorem revokePass_deleted {db db' : Db} {req : RevokeRequest} {checked : Option (Option MobileSession)}
    (h : revokePass db req checked = .ok (.revoked db')) :
    ∃ target, PassTarget db req checked target ∧ Deleted db db' target.id ∧ ∀ id, req.expected = some id → id = target.id := by
  unfold revokePass at h
  obtain ⟨absent, -, hpass⟩ := bind_ok.1 h
  clear h
  cases absent with
  | true => cases hpass
  | false =>
    simp only [Bool.false_eq_true, if_false] at hpass
    split at hpass
    · rename_i target hfind
      have hrow := List.mem_of_find?_eq_some hfind
      have hmatch := List.find?_some hfind
      simp only [Bool.and_eq_true, beq_iff_eq] at hmatch
      exact ⟨target, ⟨hrow, hmatch.1.1, Or.inl hmatch.1.2⟩, revokeTarget_deleted hpass⟩
    · split_ifs at hpass
      cases hpass
    · split at hpass
      · cases hpass
      · rename_i target htarget
        obtain ⟨v, rfl, hv⟩ := Option.bind_eq_some_iff.1 htarget
        obtain ⟨hget, hp⟩ := Option.filter_eq_some_iff.1 hv
        simp only [Bool.and_eq_true, beq_iff_eq] at hp
        obtain ⟨hrow, hid⟩ := Table.get_eq_some.1 hget
        exact ⟨target, ⟨hrow, hp.1, Or.inr ⟨v, rfl, hid, hp.2⟩⟩, revokeTarget_deleted hpass⟩

/-- the session is reported absent only when no row has or names it -/
theorem revokePass_absent {db : Db} {req : RevokeRequest} {checked : Option (Option MobileSession)}
    (h : revokePass db req checked = .ok .alreadyAbsent) :
    ∃ id, req.expected = some id ∧ db.mobileSessions.get id = none ∧ (∀ row ∈ db.sessions, row.mobileSessionId ≠ some id) ∧
      (∀ row ∈ db.deviceTokens, row.mobileSessionId ≠ id) ∧ ∀ row ∈ db.registrations, row.mobileSessionId ≠ id := by
  unfold revokePass at h
  obtain ⟨absent, habsent, h⟩ := bind_ok.1 h
  cases absent with
  | false =>
    -- the other ends of a pass are no report of absence
    have hno (target : MobileSession) : revokeTarget db req.expected target ≠ .ok .alreadyAbsent := by
      intro h
      unfold revokeTarget at h
      obtain ⟨_, -, h⟩ := bind_ok.1 h
      obtain ⟨_, -, h⟩ := bind_ok.1 h
      cases h
    simp only [Bool.false_eq_true, if_false] at h
    split at h
    · exact absurd h (hno _)
    · split_ifs at h
      cases h
    · split at h
      · cases h
      · exact absurd h (hno _)
  | true =>
    unfold expectedAbsent at habsent
    cases hexpected : req.expected with
    | none =>
      rw [hexpected] at habsent
      cases habsent
    | some id =>
      rw [hexpected] at habsent
      dsimp only at habsent
      cases hget : db.mobileSessions.get id with
      | some original =>
        rw [hget] at habsent
        obtain ⟨_, -, h⟩ := bind_ok.1 habsent
        cases h
      | none =>
        rw [hget] at habsent
        obtain ⟨_, hstate, -⟩ := bind_ok.1 habsent
        have hfree := guardOr_ok.1 hstate
        simp only [hasOperationalMobileState, Bool.not_eq_true', Bool.or_eq_false_iff, List.any_eq_false, beq_iff_eq] at hfree
        exact ⟨id, rfl, hget, hfree.1.1.1, hfree.1.1.2, hfree.1.2⟩

/-- the passes of the loop, on the database as each finds it; `none` is a loop that has not ended -/
def revokeLoop (pass check : ℕ → Db) (req : RevokeRequest) : ℕ → ℕ → Option (Option MobileSession) → Option (Except AppError Pass)
  | 0, _, _ => none
  | fuel + 1, i, checked =>
    match revokePass (pass i) req checked with
    | .ok .legacy => revokeLoop pass check req fuel (i + 1) (some (legacyCheck (check i) req))
    | result => some result

/-- after the legacy check a pass decides -/
theorem revokePass_checked (db : Db) (req : RevokeRequest) (verified : Option MobileSession) :
    revokePass db req (some verified) ≠ .ok .legacy := by
  intro h
  have hno (target : MobileSession) : revokeTarget db req.expected target ≠ .ok .legacy := by
    intro h
    unfold revokeTarget at h
    obtain ⟨_, -, h⟩ := bind_ok.1 h
    obtain ⟨_, -, h⟩ := bind_ok.1 h
    cases h
  unfold revokePass at h
  obtain ⟨absent, -, h⟩ := bind_ok.1 h
  cases absent with
  | true => cases h
  | false =>
    simp only [Bool.false_eq_true, if_false] at h
    split at h
    · exact hno _ h
    · rename_i hchecked
      cases hchecked
    · split at h
      · cases h
      · exact hno _ h

theorem revokeLoop_two (pass check : ℕ → Db) (req : RevokeRequest) : revokeLoop pass check req 2 0 none ≠ none := by
  intro h
  unfold revokeLoop at h
  split at h
  · unfold revokeLoop at h
    split at h
    · rename_i hlegacy
      exact revokePass_checked _ _ _ hlegacy
    · cases h
  · cases h

/-! ## Names -/

/-- the hash of the secret finds the session -/
def Db.Names (db : Db) (secret : Secret) (id : ℕ) : Prop :=
  (∃ m ∈ db.mobileSessions, m.id = id ∧ m.revocationTokenHash = some secret) ∨ (⟨id, secret⟩ : RevocationProof) ∈ db.proofs

theorem credentialMatches_names {db : Db} {token : Secret} {m : MobileSession} (hm : m ∈ db.mobileSessions)
    (h : credentialMatches db token m = true) : db.Names token m.id := by
  unfold credentialMatches at h
  rcases Bool.or_eq_true_iff.1 h with h | h
  · exact Or.inl ⟨m, hm, rfl, beq_iff_eq.1 h⟩
  · obtain ⟨p, hp⟩ := Option.isSome_iff_exists.1 h
    obtain ⟨hp, rfl⟩ := Table.get_eq_some.1 hp
    exact Or.inr hp

/-- names are taken away -/
def Narrows (db db' : Db) : Prop := ∀ secret id, db'.Names secret id → db.Names secret id

theorem Narrows.refl (db : Db) : Narrows db db := fun _ _ h => h

/-- mobile sessions and proofs go, or stay as they are -/
theorem Narrows.of_rows {db db' : Db} (hmobile : ∀ m ∈ db'.mobileSessions, m ∈ db.mobileSessions)
    (hproof : ∀ p ∈ db'.proofs, p ∈ db.proofs) : Narrows db db' := by
  rintro secret id (⟨m, hm, hid, hhash⟩ | hp)
  · exact Or.inl ⟨m, hmobile m hm, hid, hhash⟩
  · exact Or.inr (hproof _ hp)

theorem Deleted.narrows {db db' : Db} {id : ℕ} (h : Deleted db db' id) : Narrows db db' :=
  .of_rows (fun m hm => ((h.mobile m).1 hm).1) fun p hp => ((h.proof p).1 hp).1

theorem cascade_narrows {db db' : Db} {id : ℕ} (h : deleteMobileSessionCascade db id = .ok db') : Narrows db db' := by
  have hdeleted : Deleted db db' id :=
    deleteMobileSession_deleted (okOr_ok.1 h) rfl rfl rfl (fun _ _ => Iff.rfl) (fun _ _ => Iff.rfl) rfl
  exact hdeleted.narrows

theorem revokeUser_narrows {db db' : Db} {userId : ℕ} {keep : Option ℕ} (h : revokeUserMobileSessions db userId keep = .ok db') :
    Narrows db db' := by
  have hdel := okOr_ok.1 h
  unfold Db.deleteMobileSessions at hdel
  split_ifs at hdel
  cases hdel
  exact .of_rows (fun m hm => (Table.mem_delete.1 hm).1) fun p hp => (Table.mem_delete.1 hp).1

theorem insertProof_mem {db db' : Db} {proof p : RevocationProof} (h : db.insertProof proof = some db') :
    p ∈ db'.proofs ↔ p ∈ db.proofs ∨ p = proof := by
  unfold Db.insertProof at h
  split_ifs at h
  obtain ⟨proofs, hinsert, rfl⟩ := Option.map_eq_some_iff.1 h
  exact Table.mem_insert hinsert

/-- a proof is bound when it names no other session -/
theorem bindProof_names {db db' : Db} {current : MobileSession} {proof : Option Secret} (h : bindProof db current proof = .ok db') :
    (∀ p ∈ db'.proofs, p ∈ db.proofs ∨ p.mobileSessionId = current.id ∧ proof = some p.tokenHash) ∧
      ∀ secret, proof = some secret → ∀ id, db.Names secret id → id = current.id := by
  unfold bindProof at h
  cases proof with
  | none =>
    cases h
    exact ⟨fun p hp => Or.inl hp, nofun⟩
  | some secret =>
    obtain ⟨_, hstable, h⟩ := bind_ok.1 h
    obtain ⟨_, hhistory, h⟩ := bind_ok.1 h
    have hstable := List.all_eq_true.1 (guardOr_ok.1 hstable)
    have hhistory := List.all_eq_true.1 (guardOr_ok.1 hhistory)
    refine ⟨?_, ?_⟩
    · split_ifs at h
      · cases h
        exact fun p hp => Or.inl hp
      · intro p hp
        rcases (insertProof_mem (okOr_ok.1 h)).1 hp with hp | rfl
        · exact Or.inl hp
        · exact Or.inr ⟨rfl, rfl⟩
    · rintro secret' hsome id (⟨m, hm, rfl, hhash⟩ | hp)
      · have hm' := hstable m hm
        rw [hhash, ← hsome] at hm'
        simpa using hm'
      · have hp' := hhistory _ hp
        rw [← Option.some.inj hsome] at hp'
        simpa using hp'

theorem consumeSecret_names {db : Db} {old current : MobileSession} {req : RefreshRequest} {hash : RefreshHash}
    {expiresAt now : ℤ} {rows : Table MobileSession.id}
    (h : consumeSecret db old req hash expiresAt now = some (rows, current)) {m : MobileSession} (hm : m ∈ rows) {secret : Secret}
    (hhash : m.revocationTokenHash = some secret) :
    (∃ m' ∈ db.mobileSessions, m'.id = m.id ∧ m'.revocationTokenHash = some secret) ∨ m.id = old.id ∧ secret = req.token := by
  obtain ⟨-, hid, -, hrows⟩ := consumeSecret_some h
  by_cases hold : m.id = old.id
  · have hget := (hrows m.id).symm.trans (Table.get_key hm)
    rw [if_pos hold] at hget
    obtain rfl := Option.some.inj hget
    unfold consumeSecret at h
    dsimp only at h
    split_ifs at h with hstands
    obtain ⟨m₀, hget₀, hm₀⟩ := (Option.any_eq_true _ _).1 hstands
    obtain ⟨hmem₀, hid₀⟩ := Table.get_eq_some.1 hget₀
    obtain ⟨current₁, hcurrent, hset⟩ := Option.map_eq_some_iff.1 h
    have hget' := @Table.get_update _ _ MobileSession.id _ db.mobileSessions (old.stands req now) (.rotate hash expiresAt)
      fun _ _ => rfl
    rw [hget', hget₀, Option.map_some, if_pos hm₀, Option.some.injEq] at hcurrent
    subst hcurrent
    cases hset
    have hsecret : some (m₀.revocationTokenHash.getD req.token) = some secret := hhash
    cases hstable : m₀.revocationTokenHash with
    | none =>
      rw [hstable] at hsecret
      exact Or.inr ⟨hold, (Option.some.inj hsecret).symm⟩
    | some stable =>
      rw [hstable] at hsecret
      exact Or.inl ⟨m₀, hmem₀, rfl, hstable.trans hsecret⟩
  · have hget := (hrows m.id).symm.trans (Table.get_key hm)
    rw [if_neg hold] at hget
    exact Or.inl ⟨m, (Table.get_eq_some.1 hget).1, rfl, hhash⟩

/-- the names after a refresh: those before it, and for its own session the secret it consumed and the proof it bound -/
theorem refreshCommit_names {config : MobileConfig} {db db' : Db} {old : MobileSession} {req : RefreshRequest} {fresh salt : ℕ}
    {now : ℤ} {response : MobileTokenResponse} (h : refreshCommit config db old req fresh salt now = .ok (db', response)) :
    response.revocationToken = req.proof ∧ ∀ secret id, db'.Names secret id → db.Names secret id ∨
      id = old.id ∧ (secret = req.token ∨ req.proof = some secret ∧ ∀ id', db.Names secret id' → id' = old.id) := by
  unfold refreshCommit at h
  obtain ⟨⟨rows, current⟩, hconsume, h⟩ := bind_ok.1 h
  obtain ⟨user, -, h⟩ := bind_ok.1 h
  obtain ⟨_, -, h⟩ := bind_ok.1 h
  obtain ⟨_, -, h⟩ := bind_ok.1 h
  obtain ⟨db₁, hbind, h⟩ := bind_ok.1 h
  obtain ⟨db₂, hproof, h⟩ := bind_ok.1 h
  obtain ⟨db₃, hrow, h⟩ := bind_ok.1 h
  cases h
  obtain ⟨-, sessions, -, rfl⟩ := insertSession_some (okOr_ok.1 hrow)
  have hconsume := okOr_ok.1 hconsume
  have hproof := okOr_ok.1 hproof
  obtain ⟨-, hid, -, hrows⟩ := consumeSecret_some hconsume
  obtain ⟨hbound, halone⟩ := bindProof_names hbind
  refine ⟨rfl, ?_⟩
  rintro secret id (⟨m, hm, rfl, hhash⟩ | hp)
  · have hm' : m ∈ rows := by
      have hrows₂ : db₂.mobileSessions = rows := (insertProof_some hproof).1.trans (bindProof_ok hbind).1
      rw [← hrows₂]
      exact hm
    rcases consumeSecret_names hconsume hm' hhash with hbefore | ⟨hold, rfl⟩
    · exact Or.inl (Or.inl hbefore)
    · exact Or.inr ⟨hold, Or.inl rfl⟩
  · have hp' : (⟨id, secret⟩ : RevocationProof) ∈ db₂.proofs := hp
    rcases (insertProof_mem hproof).1 hp' with hp' | hnew
    · rcases hbound _ hp' with hp' | ⟨hcurrent, hsome⟩
      · exact Or.inl (Or.inr hp')
      · refine Or.inr ⟨hcurrent.trans hid, Or.inr ⟨hsome, ?_⟩⟩
        rintro id' (⟨m, hm, rfl, hhash⟩ | hp'')
        · by_contra hne
          have hget := hrows m.id
          rw [if_neg hne, Table.get_key hm] at hget
          exact hne ((halone secret hsome m.id (Or.inl ⟨m, (Table.get_eq_some.1 hget).1, rfl, hhash⟩)).trans hid)
        · exact (halone secret hsome id' (Or.inr hp'')).trans hid
    · cases hnew
      exact Or.inr ⟨hid, Or.inl rfl⟩

/-! ## Steps -/

/-- the secret was drawn for the session, or a refresh of the session proposed it as a proof -/
def St.IssuedFor (s : St) (secret : Secret) (id : ℕ) : Prop :=
  (secret, id) ∈ s.issued ∨
    secret.isProof = true ∧ ∃ r ∈ s.refreshed, r.2.mobileSessionId = id ∧ r.2.revocationToken = some secret

/-- a refresh that goes on has a proof in the form of proofs; a legacy check that found a row found its secret -/
def Task.Careful : Task → Prop
  | .verified _ req => ∀ proof, req.proof = some proof → proof.isProof = true
  | .checked req found => ∀ v, found = some v → v.refreshTokenHash.secret = req.token
  | _ => True

/-- a step gives new names to one session at most, each by a secret that is issued for it and names no other -/
structure Credits (s s' : St) : Prop where
  names : ∃ id₀, ∀ secret id, s'.db.Names secret id → s.db.Names secret id ∨
    id = id₀ ∧ s'.IssuedFor secret id ∧ ∀ id', s.db.Names secret id' → id' = id₀
  issued : s.issued ⊆ s'.issued
  refreshed : s.refreshed ⊆ s'.refreshed
  tasks : ∀ t, s'.tasks t = s.tasks t ∨ (s'.tasks t).Careful

structure Credentials (s : St) : Prop where
  unique : ∀ secret id id', s.db.Names secret id → s.db.Names secret id' → id = id'
  issued : ∀ secret id, s.db.Names secret id → s.IssuedFor secret id
  tasks : ∀ t, (s.tasks t).Careful

section Steps

variable {C : Crates} {config : MobileConfig} {s : St}

theorem St.IssuedFor.mono {s' : St} {secret : Secret} {id : ℕ} (h : s.IssuedFor secret id) (hissued : s.issued ⊆ s'.issued)
    (hrefreshed : s.refreshed ⊆ s'.refreshed) : s'.IssuedFor secret id :=
  h.imp (fun h => hissued h) fun ⟨hproof, r, hr, hrest⟩ => ⟨hproof, r, hrefreshed hr, hrest⟩

theorem Credentials.credit {s' : St} (h : Credentials s) (hstep : Credits s s') : Credentials s' := by
  obtain ⟨id₀, hnames⟩ := hstep.names
  refine ⟨fun secret id id' hid hid' => ?_, fun secret id hid => ?_, fun t => ?_⟩
  · rcases hnames secret id hid with hold | ⟨rfl, -, halone⟩
    · rcases hnames secret id' hid' with hold' | ⟨rfl, -, halone⟩
      · exact h.unique secret id id' hold hold'
      · exact halone id hold
    · rcases hnames secret id' hid' with hold' | ⟨heq, -, -⟩
      · exact (halone id' hold').symm
      · exact heq.symm
  · rcases hnames secret id hid with hold | ⟨-, hissued, -⟩
    · exact (h.issued secret id hold).mono hstep.issued hstep.refreshed
    · exact hissued
  · rcases hstep.tasks t with heq | hcareful
    · rw [heq]
      exact h.tasks t
    · exact hcareful

theorem Credits.narrow {db : Db} {tasks : ℕ → Task} (hdb : Narrows s.db db)
    (htasks : ∀ t, tasks t = s.tasks t ∨ (tasks t).Careful) : Credits s { s with db := db, tasks := tasks } :=
  ⟨⟨0, fun secret id h => Or.inl (hdb secret id h)⟩, fun _ h => h, fun _ h => h, htasks⟩

theorem Credits.same : Credits s s := .narrow (.refl s.db) fun _ => Or.inl rfl

theorem Credits.write {db : Db} (hdb : Narrows s.db db) : Credits s { s with db := db } := .narrow hdb fun _ => Or.inl rfl

theorem careful_update {t : ℕ} {task : Task} (h : task.Careful) (t' : ℕ) :
    Function.update s.tasks t task t' = s.tasks t' ∨ (Function.update s.tasks t task t').Careful := by
  by_cases ht : t' = t
  · subst ht
    rw [Function.update_self]
    exact Or.inr h
  · exact Or.inl (Function.update_of_ne ht ..)

theorem Credits.close {db : Db} {t : ℕ} {task : Task} (hdb : Narrows s.db db) (htask : task.Careful) :
    Credits s { s.goto t task with db := db } := .narrow hdb (careful_update htask)

theorem Credits.goto {t : ℕ} {task : Task} (htask : task.Careful) : Credits s (s.goto t task) := .close (.refl s.db) htask

theorem credits_apply {commits : Bool} {result : Except AppError Db} (h : ∀ db, result = .ok db → Narrows s.db db) :
    Credits s (s.apply commits result) := by
  cases result with
  | error e => exact .same
  | ok db =>
    cases commits with
    | false => exact .same
    | true => exact .write (h db rfl)

theorem credits_close {t : ℕ} {commits : Bool} {result : Except AppError Db} (h : ∀ db, result = .ok db → Narrows s.db db) :
    Credits s ((s.goto t .idle).apply commits result) := by
  cases result with
  | error e => exact .goto trivial
  | ok db =>
    cases commits with
    | false => exact .goto trivial
    | true => exact .close (h db rfl) trivial

theorem credits_proceed {α : Type} {t : ℕ} {task : α → Task} {result : Except AppError α}
    (h : ∀ a, result = .ok a → (task a).Careful) : Credits s (s.proceed t task result) := by
  cases result with
  | error e => exact .goto trivial
  | ok a => exact .goto (h a rfl)

theorem credits_endPass {t : ℕ} {req : RevokeRequest} {commits : Bool} {checked : Option (Option MobileSession)} :
    Credits s (s.endPass t req commits (revokePass s.db req checked)) := by
  cases h : revokePass s.db req checked with
  | error e => exact .goto trivial
  | ok pass =>
    cases pass with
    | alreadyAbsent => exact .goto trivial
    | legacy =>
      cases commits with
      | false => exact .goto trivial
      | true => exact .goto trivial
    | revoked db =>
      obtain ⟨target, -, hdeleted, -⟩ := revokePass_deleted h
      show Credits s ((s.goto t .idle).apply commits (.ok db))
      exact credits_close fun _ h' => Except.ok.inj h' ▸ hdeleted.narrows

theorem credits_refresh {t : ℕ} {req : RefreshRequest} {now : ℤ} :
    Credits s (s.proceed t (.verified · req) (refreshVerify C s.db req now)) := by
  refine credits_proceed fun old h proof hproof => ?_
  obtain ⟨_, hvalid, -⟩ := bind_ok.1 h
  have hvalid := guardOr_ok.1 hvalid
  rw [hproof, Option.all_some] at hvalid
  cases proof with
  | drawn n => cases hvalid
  | text a => exact (Bool.and_eq_true_iff.1 hvalid).1

/-- the secret of the legacy check is the one of the row it finds -/
theorem legacyCheck_secret {db : Db} {req : RevokeRequest} {v : MobileSession} (h : legacyCheck db req = some v) :
    v.refreshTokenHash.secret = req.token := by
  have hfound := List.find?_some h
  simp only [Bool.and_eq_true, verifyRefreshToken, beq_iff_eq] at hfound
  exact hfound.2

/-- a login names its session by a secret that it draws -/
theorem credits_login {t installationId salt : ℕ} {now : ℤ} {user : User} {rows : Table MobileSession.id} {task : Task}
    (hinv : Inv s) (hcred : Credentials s) (htask : task.Careful)
    (h : s.db.mobileSessions.insert (loginMobileSession config user installationId s.fresh salt now) = some rows) :
    Credits s { s.goto t task with
      db := { s.db with mobileSessions := rows }
      fresh := s.fresh + 5
      issued := (loginResponse config user s.fresh).secrets.map (fun secret => (secret, s.fresh + 3)) ++ s.issued } := by
  refine ⟨⟨s.fresh + 3, fun secret id hname => ?_⟩, List.subset_append_right _ _, fun _ hr => hr, careful_update htask⟩
  rcases hname with ⟨m, hm, rfl, hhash⟩ | hp
  · rcases (Table.mem_insert h).1 hm with hm | rfl
    · exact Or.inl (Or.inl ⟨m, hm, rfl, hhash⟩)
    · obtain rfl := Option.some.inj hhash
      refine Or.inr ⟨rfl, Or.inl (List.mem_append_left _ (List.mem_map.2 ⟨_, ?_, rfl⟩)), fun id' hid' => ?_⟩
      · simp [loginResponse, MobileTokenResponse.secrets]
      · -- a secret that is yet to be drawn names nothing
        rcases hcred.issued _ _ hid' with hissued | ⟨hproof, -⟩
        · exact absurd hissued (hinv.not_issued (by omega))
        · cases hproof
  · exact Or.inl (Or.inr hp)

/-- a refresh names its session by the secret it consumed and by its proof -/
theorem credits_rotate {t salt : ℕ} {now : ℤ} {old : MobileSession} {req : RefreshRequest} {db : Db}
    {response : MobileTokenResponse} (hinv : Inv s) (hcred : Credentials s) (ht : s.tasks t = .verified old req)
    (h : refreshCommit config s.db old req s.fresh salt now = .ok (db, response)) :
    Credits s { s.goto t .idle with
      db := db
      fresh := s.fresh + 3
      revealed := [response.accessToken, response.refreshToken] ++ s.revealed
      issued := [(response.accessToken, response.mobileSessionId), (response.refreshToken, response.mobileSessionId)] ++ s.issued
      refreshed := (req.token, response) :: s.refreshed } := by
  have hrotated := refreshCommit_ok h
  obtain ⟨hbound, hnames⟩ := refreshCommit_names h
  have hsecret : (req.token, old.id) ∈ s.issued := by
    obtain ⟨m, hm, hid, hhash⟩ := hrotated.consumed
    rw [← (hinv.verified t old req ht).1, ← hid, ← hhash]
    exact hinv.hash_issued m hm
  refine ⟨⟨old.id, fun secret id hname => ?_⟩, List.subset_append_right _ _, List.subset_cons_self _ _, careful_update trivial⟩
  rcases hnames secret id hname with hold | ⟨rfl, rfl | ⟨hproof, halone⟩⟩
  · exact Or.inl hold
  · refine Or.inr ⟨rfl, Or.inl (List.mem_append_right _ hsecret), fun id' hid' => ?_⟩
    rcases hcred.issued _ _ hid' with hissued | ⟨hproof, -⟩
    · exact hinv.issued_eq hissued hsecret
    · obtain ⟨n, hdrawn, -⟩ := hinv.issued_drawn _ hsecret
      have hdrawn : req.token = .drawn n := hdrawn
      rw [hdrawn] at hproof
      cases hproof
  · have hcareful := hcred.tasks t
    rw [ht] at hcareful
    exact Or.inr ⟨rfl, Or.inr ⟨hcareful secret hproof, (req.token, response), List.mem_cons_self, hrotated.sessionId,
      hbound.trans hproof⟩, halone⟩

theorem step_credits (hinv : Inv s) (hcred : Credentials s) (op : Op) : Credits s (step C config s op) := by
  cases op with
  | login t username password totpCode => exact credits_proceed fun _ _ => trivial
  | pair t userId => exact credits_proceed fun _ _ => trivial
  | insertMobileSession t installationId salt now =>
    simp only [step]
    split
    · split
      · exact .goto trivial
      · rename_i db h
        obtain ⟨rows, hrows, rfl⟩ := insertMobileSession_some h
        exact credits_login hinv hcred trivial hrows
    · exact .same
  | insertSession t =>
    simp only [step]
    split
    · split
      · exact .goto trivial
      · rename_i db h
        obtain ⟨-, rows, -, rfl⟩ := insertSession_some h
        exact ⟨⟨0, fun secret id hname => Or.inl hname⟩, fun _ h => h, fun _ h => h, careful_update trivial⟩
    · exact .same
  | refresh t req now =>
    simp only [step]
    split_ifs
    · exact credits_refresh
    · exact .same
  | rotate t salt now commits =>
    simp only [step]
    split
    · rename_i old req ht
      split
      · rename_i db response h
        exact credits_rotate hinv hcred ht h
      · exact .goto trivial
    · exact .same
  | logout id commits => exact credits_apply fun _ h => cascade_narrows h
  | revokeDevice t id userId => exact credits_proceed fun _ _ => trivial
  | deleteDevice t commits =>
    simp only [step]
    split
    · exact credits_close fun _ h => cascade_narrows h
    · exact .same
  | revokeWithCredential t req commits =>
    simp only [step]
    split_ifs
    · exact credits_endPass
    · exact .same
  | legacyCheck t =>
    simp only [step]
    split
    · exact .goto fun v hv => legacyCheck_secret hv
    · exact .same
  | retryRevoke t commits =>
    simp only [step]
    split
    · exact credits_endPass
    · exact .same
  | recover t req =>
    simp only [step]
    split_ifs
    · exact credits_proceed fun _ _ => trivial
    · exact .same
  | recoverValidated t now commits =>
    simp only [step]
    split
    · split
      · rename_i db h
        refine credits_close fun db' hdb => ?_
        cases hdb
        obtain ⟨id, h⟩ := recoverValidated_deleted h
        exact (recoverTarget_deleted h).1.narrows
      · exact .goto trivial
    · exact .same
  | users users => exact .write (.of_rows (fun _ h => h) fun _ h => h)
  | devices deviceTokens registrations =>
    simp only [step]
    split_ifs
    · exact .write (.of_rows (fun _ h => h) fun _ h => h)
    · exact .same
  | webLogin userId expiresAt now =>
    simp only [step]
    split
    · exact .same
    · rename_i db h
      obtain ⟨-, rows, -, rfl⟩ := insertSession_some h
      exact ⟨⟨0, fun secret id hname => Or.inl hname⟩, fun _ h => h, fun _ h => h, fun _ => Or.inl rfl⟩
  | endSessions ended => exact .write (.of_rows (fun _ h => h) fun _ h => h)
  | revokeUser userId keep commits => exact credits_apply fun _ h => revokeUser_narrows h
  | reissue id now =>
    refine .write fun secret k hname => ?_
    rcases hname with ⟨m, hm, rfl, hhash⟩ | hp
    · obtain ⟨m', hm', rfl⟩ := (Table.mem_update (p := fun m : MobileSession => m.id == id) (f := .reissue now) fun _ _ => rfl).1 hm
      refine Or.inl ⟨m', hm', ?_, ?_⟩
      · split_ifs <;> rfl
      · rw [← hhash]
        split_ifs <;> rfl
    · exact Or.inr hp

end Steps

/-! ## Runs -/

/-- the secret names the session, or it is its refresh secret -/
def Db.Resolves (db : Db) (secret : Secret) (id : ℕ) : Prop :=
  db.Names secret id ∨ ∃ m ∈ db.mobileSessions, m.id = id ∧ m.refreshTokenHash.secret = secret

/-- the request whose pass a step makes -/
def St.revocation (s : St) : Op → Option RevokeRequest
  | .revokeWithCredential _ req _ => some req
  | .retryRevoke t _ =>
    match s.tasks t with
    | .checked req _ => some req
    | _ => none
  | _ => none

section Runs

variable {C : Crates} {config : MobileConfig} {s : St}

theorem credentials_init : Credentials .init := by
  refine ⟨fun secret id id' h => ?_, fun secret id h => ?_, fun _ => trivial⟩
  · rcases h with ⟨m, hm, -⟩ | hp
    · cases hm
    · cases hp
  · rcases h with ⟨m, hm, -⟩ | hp
    · cases hm
    · cases hp

theorem run_credentials (ops : List Op) (hinv : Inv s) (h : Credentials s) : Credentials (run C config s ops) := by
  induction ops generalizing s with
  | nil => exact h
  | cons op ops ih => exact ih (hinv.move (step_move op)) (h.credit (step_credits hinv h op))

theorem Credentials.resolves_issued (h : Credentials s) (hinv : Inv s) {secret : Secret} {id : ℕ} (hid : s.db.Resolves secret id) :
    s.IssuedFor secret id := by
  rcases hid with hname | ⟨m, hm, rfl, rfl⟩
  · exact h.issued secret id hname
  · exact Or.inl (hinv.hash_issued m hm)

theorem Credentials.resolves_unique (h : Credentials s) (hinv : Inv s) {secret : Secret} {id id' : ℕ}
    (hid : s.db.Resolves secret id) (hid' : s.db.Resolves secret id') : id = id' := by
  -- a refresh secret is drawn, so it is not a proof
  have hdrawn {k k' : ℕ} (hk : (secret, k) ∈ s.issued) (hk' : s.IssuedFor secret k') : k = k' := by
    rcases hk' with hk' | ⟨hproof, -⟩
    · exact hinv.issued_eq hk hk'
    · obtain ⟨n, hn, -⟩ := hinv.issued_drawn _ hk
      have hn : secret = .drawn n := hn
      rw [hn] at hproof
      cases hproof
  rcases hid with hname | ⟨m, hm, rfl, rfl⟩
  · rcases hid' with hname' | ⟨m', hm', rfl, rfl⟩
    · exact h.unique secret id id' hname hname'
    · exact (hdrawn (hinv.hash_issued m' hm') (h.issued _ _ hname)).symm
  · exact hdrawn (hinv.hash_issued m hm) (h.resolves_issued hinv hid')

/-- what a pass deletes is the session of the secret -/
theorem pass_deletes {req : RevokeRequest} {checked : Option (Option MobileSession)} {t : ℕ} {commits : Bool}
    (hchecked : ∀ v, checked = some (some v) → v.refreshTokenHash.secret = req.token) :
    (s.endPass t req commits (revokePass s.db req checked)).db = s.db ∨
      ∃ id, Deleted s.db (s.endPass t req commits (revokePass s.db req checked)).db id ∧ s.db.Resolves req.token id ∧
        ∀ expected, req.expected = some expected → expected = id := by
  cases h : revokePass s.db req checked with
  | error e => exact Or.inl rfl
  | ok pass =>
    cases pass with
    | alreadyAbsent => exact Or.inl rfl
    | legacy => exact Or.inl rfl
    | revoked db =>
      cases commits with
      | false => exact Or.inl rfl
      | true =>
        obtain ⟨target, htarget, hdeleted, hexpected⟩ := revokePass_deleted h
        refine Or.inr ⟨target.id, hdeleted, ?_, hexpected⟩
        rcases htarget.found with hmatch | ⟨v, hv, hid, hhash⟩
        · exact Or.inl (credentialMatches_names htarget.row hmatch)
        · exact Or.inr ⟨target, htarget.row, rfl, hhash ▸ hchecked v hv⟩

theorem Credentials.revocation_deletes (h : Credentials s) {op : Op} {req : RevokeRequest} (hop : s.revocation op = some req) :
    (step C config s op).db = s.db ∨ ∃ id, Deleted s.db (step C config s op).db id ∧ s.db.Resolves req.token id ∧
      ∀ expected, req.expected = some expected → expected = id := by
  cases op with
  | revokeWithCredential t req' commits =>
    obtain rfl := Option.some.inj hop
    simp only [step]
    split_ifs
    · exact pass_deletes fun v hv => by cases hv
    · exact Or.inl rfl
  | retryRevoke t commits =>
    simp only [St.revocation] at hop
    split at hop
    · rename_i req' found ht
      obtain rfl := Option.some.inj hop
      simp only [step, ht]
      have hcareful := h.tasks t
      rw [ht] at hcareful
      exact pass_deletes fun v hv => hcareful v (Option.some.inj hv)
    · cases hop
  | _ => cases hop

/-- **A deletion credential names one session.** In every run of the machine: a secret names one mobile session at most, one
that it was issued for; a step of a revocation deletes that session and the rows that refer to it, or nothing, and nothing
when another session is expected; a session is reported absent when none of its rows is left. The loop of a revocation ends
with its second pass. -/
theorem credentials_name_one (ops : List Op) :
    let s := run C config .init ops
    (∀ secret id id', s.db.Resolves secret id → s.db.Resolves secret id' → id = id') ∧
    (∀ secret id, s.db.Resolves secret id → s.IssuedFor secret id) ∧
    (∀ op req, s.revocation op = some req → (step C config s op).db = s.db ∨
      ∃ id, Deleted s.db (step C config s op).db id ∧ s.db.Resolves req.token id ∧
        ∀ expected, req.expected = some expected → expected = id) ∧
    (∀ req checked, revokePass s.db req checked = .ok .alreadyAbsent → ∃ id, req.expected = some id ∧
      s.db.mobileSessions.get id = none ∧ (∀ row ∈ s.db.sessions, row.mobileSessionId ≠ some id) ∧
        (∀ row ∈ s.db.deviceTokens, row.mobileSessionId ≠ id) ∧ ∀ row ∈ s.db.registrations, row.mobileSessionId ≠ id) ∧
    ∀ pass check req, revokeLoop pass check req 2 0 none ≠ none := by
  intro s
  have hinv : Inv s := run_inv ops inv_init
  have h : Credentials s := run_credentials ops inv_init credentials_init
  refine ⟨fun secret id id' => h.resolves_unique hinv, fun secret id => h.resolves_issued hinv, fun op req => h.revocation_deletes,
    fun req checked => revokePass_absent, revokeLoop_two⟩

end Runs

end ServerBee.Mobile
