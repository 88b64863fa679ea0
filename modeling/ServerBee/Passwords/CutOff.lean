/-
What a password change cuts off.

A session is cut off when the password behind it was proved in an earlier epoch than its user's. A change deletes the sessions that
exist when it commits, so what survives it is what a login inserts afterwards (`Guarded`): a web session, or a mobile session
whose issue time is not before the change, or an access session of one that is. The caller's mobile session is looked up before
the transaction, which spares the access session of the caller's token only: a rotation in between loses.
-/
import ServerBee.Passwords.Transactions

namespace ServerBee.Passwords

open ServerBee.Lib ServerBee.Mobile

namespace State

variable (s : State)

/-- proved in the current epoch -/
def Current (m : MobileSession) : Prop := s.mobileEpoch m.id = s.epoch m.userId

/-- issued before the password was changed: no refresh takes it -/
def Stale (m : MobileSession) : Prop :=
  ∃ user changed, s.db.users.get m.userId = some user ∧ user.passwordChangedAt = some changed ∧ m.createdAt < changed

/-- an access session has the epoch of its mobile session, if it has one -/
def Proved (row : AccessSession) : Prop :=
  row.mobileSessionId.elim (s.webEpoch row.id) s.mobileEpoch = s.epoch row.userId

end State

/-- a session of the caller's mobile session `id` is found, and no other access session of it -/
def Unrotated (db : Db) (token : Option Secret) (keep : Option ℕ) (id : ℕ) : Prop :=
  keep = some id ∧ ∀ row ∈ db.sessions, row.mobileSessionId = some id → token = some row.token

/-- what a statement has to find -/
def Guarded (config : MobileConfig) (s : State) : Op → Prop
  | .createWebSession t _ _ => ∀ user epoch, s.tasks t = .webVerified user epoch → epoch = s.epoch user.id
  | .insertMobileSession t installationId salt now => ∀ user epoch, s.tasks t = .mobileVerified user epoch →
    epoch = s.epoch user.id ∨ s.Stale (loginMobileSession config user installationId s.fresh salt now)
  | .insertSession t => ∀ access, s.tasks t = .halfway access →
    ∀ m ∈ s.db.mobileSessions, access.mobileSessionId = some m.id → s.Current m
  | .commitChange t _ => ∀ user newHash now token own keep, s.tasks t = .resolved user newHash now token own keep →
    ∀ m ∈ s.db.mobileSessions, own = some m.id → m.userId = user.id → Unrotated s.db token keep m.id
  | _ => True

/-! ## Invariant -/

namespace State

/-- what a call knows of the rows that it has read -/
def TaskOk (s : State) : Task → Prop
  | .halfway access => ∃ id < s.fresh, access.mobileSessionId = some id ∧
    ∀ m ∈ s.db.mobileSessions, m.id = id → m.userId = access.userId
  | .resolved _ _ _ _ _ keep => ∀ id, keep = some id → id < s.fresh ∧ ∀ m ∈ s.db.mobileSessions, m.id = id → s.Current m
  | _ => True

structure Inv (s : State) : Prop where
  old : ∀ m ∈ s.db.mobileSessions, m.id < s.fresh
  mobile : ∀ m ∈ s.db.mobileSessions, s.Current m ∨ s.Stale m
  proved : ∀ row ∈ s.db.sessions, s.Proved row
  owner : ∀ row ∈ s.db.sessions, ∀ id, row.mobileSessionId = some id →
    ∃ m ∈ s.db.mobileSessions, m.id = id ∧ m.userId = row.userId
  tasks : ∀ t, s.TaskOk (s.tasks t)

theorem Inv.refs {s : State} (h : s.Inv) : s.db.Refs := by
  intro row hrow id hid
  obtain ⟨m, hm, hmid, -⟩ := h.owner row hrow id hid
  exact ⟨m, hm, hmid⟩

/-- older mobile sessions keep their user, and stay current when they are -/
structure Follows (s s' : State) : Prop where
  fresh : s.fresh ≤ s'.fresh
  mobile : ∀ m' ∈ s'.db.mobileSessions, m'.id < s.fresh →
    ∃ m ∈ s.db.mobileSessions, m'.id = m.id ∧ m'.userId = m.userId ∧ (s.Current m → s'.Current m')

variable {s s' : State}

theorem TaskOk.follow (h : Follows s s') {task : Task} (htask : s.TaskOk task) : s'.TaskOk task := by
  cases task with
  | halfway access =>
    obtain ⟨id, hlt, hid, howner⟩ := htask
    refine ⟨id, hlt.trans_le h.fresh, hid, fun m' hm' hm'id => ?_⟩
    obtain ⟨m, hm, hmid, huser, -⟩ := h.mobile m' hm' (hm'id ▸ hlt)
    rw [huser]
    exact howner m hm (hmid.symm.trans hm'id)
  | resolved user newHash now token own keep =>
    intro id hkeep
    obtain ⟨hlt, hcurrent⟩ := htask id hkeep
    refine ⟨hlt.trans_le h.fresh, fun m' hm' hm'id => ?_⟩
    obtain ⟨m, hm, hmid, -, hstays⟩ := h.mobile m' hm' (hm'id ▸ hlt)
    exact hstays (hcurrent m hm (hmid.symm.trans hm'id))
  | _ => trivial

theorem Inv.tasks_follow (hi : s.Inv) (h : Follows s s') (htasks : ∀ t, s'.tasks t = s.tasks t ∨ s'.TaskOk (s'.tasks t)) :
    ∀ t, s'.TaskOk (s'.tasks t) := by
  intro t
  rcases htasks t with heq | hok
  · rw [heq]
    exact (hi.tasks t).follow h
  · exact hok

theorem tasks_goto {P : Task → Prop} {t : ℕ} {task : Task} (htask : P task) :
    ∀ t', Function.update s.tasks t task t' = s.tasks t' ∨ P (Function.update s.tasks t task t') := by
  intro t'
  by_cases ht : t' = t
  · rw [ht, Function.update_self]
    exact Or.inr htask
  · rw [Function.update_of_ne ht]
    exact Or.inl rfl

-- the equations of the predicates, and below those of a step, are made once, ahead of the lemmas that unfold them
attribute [local simp] Current Stale Proved in
theorem Follows.of_db (hfresh : s.fresh ≤ s'.fresh) (hepoch : s'.epoch = s.epoch) (hmobileEpoch : s'.mobileEpoch = s.mobileEpoch)
    (hmobile : ∀ m' ∈ s'.db.mobileSessions, ∃ m ∈ s.db.mobileSessions, m'.id = m.id ∧ m'.userId = m.userId) :
    Follows s s' := by
  refine ⟨hfresh, fun m' hm' _ => ?_⟩
  obtain ⟨m, hm, hid, huser⟩ := hmobile m' hm'
  refine ⟨m, hm, hid, huser, fun hcurrent => ?_⟩
  unfold Current
  rw [hepoch, hmobileEpoch, hid, huser]
  exact hcurrent

theorem Inv.goto (h : s.Inv) {t : ℕ} {task : Task} (htask : s.TaskOk task) : (s.goto t task).Inv :=
  { h with tasks := h.tasks_follow (.of_db le_rfl rfl rfl fun m hm => ⟨m, hm, rfl, rfl⟩) (tasks_goto htask) }

theorem Inv.proceed (h : s.Inv) {α : Type} {t : ℕ} {task : α → Task} {x : Except AppError α}
    (htask : ∀ a, x = .ok a → s.TaskOk (task a)) : (s.proceed t task x).Inv := by
  cases x with
  | ok a => exact h.goto (htask a rfl)
  | error e => exact h.goto trivial

/-- sessions end -/
theorem Inv.shrink (h : s.Inv) {db : Db} (husers : db.users = s.db.users)
    (hmobile : ∀ m ∈ db.mobileSessions, m ∈ s.db.mobileSessions) (hsessions : ∀ row ∈ db.sessions, row ∈ s.db.sessions)
    (hrefs : s.db.Refs → db.Refs) : ({ s with db := db } : State).Inv where
  old m hm := h.old m (hmobile m hm)
  mobile m hm := by
    unfold Stale
    rw [husers]
    exact h.mobile m (hmobile m hm)
  proved row hrow := h.proved row (hsessions row hrow)
  owner row hrow id hid := by
    obtain ⟨m, hm, hmid⟩ := hrefs h.refs row hrow id hid
    obtain ⟨m', hm', hm'id, huser⟩ := h.owner row (hsessions row hrow) id hid
    refine ⟨m, hm, hmid, ?_⟩
    rw [Table.mem_inj (hmobile m hm) hm' (hmid.trans hm'id.symm), huser]
  tasks := h.tasks_follow (.of_db le_rfl rfl rfl fun m hm => ⟨m, hmobile m hm, rfl, rfl⟩) fun _ => Or.inl rfl

/-! ## Steps -/

theorem Proved.congr {row : AccessSession} (h : s.Proved row) (hepoch : s'.epoch row.userId = s.epoch row.userId)
    (hweb : row.mobileSessionId = none → s'.webEpoch row.id = s.webEpoch row.id)
    (hmobile : ∀ id, row.mobileSessionId = some id → s'.mobileEpoch id = s.mobileEpoch id) : s'.Proved row := by
  unfold Proved at h ⊢
  rw [hepoch, ← h]
  cases hid : row.mobileSessionId with
  | none => exact hweb hid
  | some id => exact hmobile id hid

theorem Inv.webSession (h : s.Inv) {t userId epoch : ℕ} {token : Secret} {expiresAt now : ℤ} {rows : Table AccessSession.id}
    (hinsert : s.db.sessions.insert ⟨s.fresh, userId, token, expiresAt, now, .web, none⟩ = some rows)
    (hepoch : epoch = s.epoch userId) :
    ({ s.goto t .idle with
        db := { s.db with sessions := rows }
        fresh := s.fresh + 2
        webEpoch := Function.update s.webEpoch s.fresh epoch } : State).Inv where
  old m hm := (h.old m hm).trans (Nat.lt_add_of_pos_right two_pos)
  mobile := h.mobile
  proved row hrow := by
    rcases (Table.mem_insert hinsert).1 hrow with hrow | rfl
    · have hne : row.id ≠ s.fresh := Table.get_eq_none.1 (Table.insert_fresh hinsert) row hrow
      exact (h.proved row hrow).congr rfl (fun _ => Function.update_of_ne hne ..) fun _ _ => rfl
    · exact (Function.update_self ..).trans hepoch
  owner row hrow id hid := by
    rcases (Table.mem_insert hinsert).1 hrow with hrow | rfl
    · exact h.owner row hrow id hid
    · cases hid
  tasks := h.tasks_follow (.of_db (Nat.le_add_right ..) rfl rfl fun m hm => ⟨m, hm, rfl, rfl⟩) (tasks_goto trivial)

theorem Inv.begin (h : s.Inv) {config : MobileConfig} {t epoch installationId salt : ℕ} {user : User} {now : ℤ}
    {rows : Table MobileSession.id}
    (hinsert : s.db.mobileSessions.insert (loginMobileSession config user installationId s.fresh salt now) = some rows)
    (hepoch : epoch = s.epoch user.id ∨ s.Stale (loginMobileSession config user installationId s.fresh salt now)) :
    ({ s.goto t (.halfway (loginAccessSession config user s.fresh now)) with
        db := { s.db with mobileSessions := rows }
        fresh := s.fresh + 5
        mobileEpoch := Function.update s.mobileEpoch (s.fresh + 3) epoch } : State).Inv := by
  -- no session has the new identifier yet
  have hne : ∀ m ∈ s.db.mobileSessions, m.id ≠ s.fresh + 3 := fun m hm heq => by
    have := h.old m hm
    omega
  refine ⟨fun m hm => ?_, fun m hm => ?_, fun row hrow => ?_, fun row hrow id hid => ?_, ?_⟩
  · rcases (Table.mem_insert hinsert).1 hm with hm | rfl
    · exact (h.old m hm).trans (Nat.lt_add_of_pos_right (by decide))
    · exact Nat.add_lt_add_left (by decide) s.fresh
  · rcases (Table.mem_insert hinsert).1 hm with hm | rfl
    · rcases h.mobile m hm with hcurrent | hstale
      · exact Or.inl ((Function.update_of_ne (hne m hm) ..).trans hcurrent)
      · exact Or.inr hstale
    · rcases hepoch with hepoch | hstale
      · exact Or.inl ((Function.update_self ..).trans hepoch)
      · exact Or.inr hstale
  · refine (h.proved row hrow).congr rfl (fun _ => rfl) fun id hid => ?_
    obtain ⟨m, hm, rfl, -⟩ := h.owner row hrow id hid
    exact Function.update_of_ne (hne m hm) ..
  · obtain ⟨m, hm, hmid⟩ := h.owner row hrow id hid
    exact ⟨m, (Table.mem_insert hinsert).2 (Or.inl hm), hmid⟩
  · refine h.tasks_follow ⟨Nat.le_add_right .., fun m hm hlt => ?_⟩ (tasks_goto ?_)
    · rcases (Table.mem_insert hinsert).1 hm with hm | rfl
      · exact ⟨m, hm, rfl, rfl, fun hcurrent => (Function.update_of_ne (hne m hm) ..).trans hcurrent⟩
      · exact absurd hlt (Nat.not_lt.2 (Nat.le_add_right ..))
    · refine ⟨s.fresh + 3, Nat.add_lt_add_left (by decide) s.fresh, rfl, fun m hm hid => ?_⟩
      rcases (Table.mem_insert hinsert).1 hm with hm | rfl
      · exact absurd hid (hne m hm)
      · rfl

theorem Inv.finish (h : s.Inv) {t : ℕ} {access : AccessSession} {rows : Table AccessSession.id}
    (ht : s.tasks t = .halfway access) (hrefs : ∀ id, access.mobileSessionId = some id → ∃ m ∈ s.db.mobileSessions, m.id = id)
    (hinsert : s.db.sessions.insert access = some rows)
    (hcurrent : ∀ m ∈ s.db.mobileSessions, access.mobileSessionId = some m.id → s.Current m) :
    ({ s.goto t .idle with db := { s.db with sessions := rows } } : State).Inv := by
  obtain ⟨id, -, hid, howner⟩ : s.TaskOk (.halfway access) := ht ▸ h.tasks t
  obtain ⟨m, hm, rfl⟩ := hrefs id hid
  have huser := howner m hm rfl
  refine { h with proved := fun row hrow => ?_, owner := fun row hrow k hk => ?_, tasks := ?_ }
  · rcases (Table.mem_insert hinsert).1 hrow with hrow | rfl
    · exact h.proved row hrow
    · show Option.elim _ _ _ = _
      rw [hid, ← huser]
      exact hcurrent m hm hid
  · rcases (Table.mem_insert hinsert).1 hrow with hrow | rfl
    · exact h.owner row hrow k hk
    · exact ⟨m, hm, Option.some.inj (hid.symm.trans hk), huser⟩
  · exact h.tasks_follow (.of_db le_rfl rfl rfl fun m hm => ⟨m, hm, rfl, rfl⟩) (tasks_goto trivial)

theorem Inv.rotate (h : s.Inv) {t : ℕ} {db : Db} {m : MobileSession} (hrefreshed : Refreshed s.db db m) :
    ({ s.goto t .idle with db := db, fresh := s.fresh + 3 } : State).Inv := by
  have hcurrent : s.Current m := by
    rcases h.mobile m hrefreshed.old with hcurrent | ⟨user, changed, huser, hchanged, hlt⟩
    · exact hcurrent
    · exact absurd hlt (not_lt.2 (hrefreshed.accepted user changed huser hchanged))
  have hback : ∀ m' ∈ db.mobileSessions, ∃ m₀ ∈ s.db.mobileSessions, m'.id = m₀.id ∧ m'.userId = m₀.userId := by
    intro m' hm'
    rcases hrefreshed.mobile m' hm' with ⟨hid, huser, -⟩ | hm'
    · exact ⟨m, hrefreshed.old, hid, huser⟩
    · exact ⟨m', hm', rfl, rfl⟩
  refine ⟨fun m' hm' => ?_, fun m' hm' => ?_, fun row hrow => ?_, fun row hrow id hid => ?_, ?_⟩
  · obtain ⟨m₀, hm₀, hid, -⟩ := hback m' hm'
    rw [hid]
    exact (h.old m₀ hm₀).trans (Nat.lt_add_of_pos_right (by decide))
  · rcases hrefreshed.mobile m' hm' with ⟨hid, huser, -⟩ | hm'
    · left
      unfold Current
      rw [hid, huser]
      exact hcurrent
    · unfold Stale
      rw [hrefreshed.users]
      exact h.mobile m' hm'
  · rcases hrefreshed.session row hrow with hrow | ⟨hid, huser⟩
    · exact h.proved row hrow
    · unfold Proved
      rw [hid, huser]
      exact hcurrent
  · have hold : ∃ m₀ ∈ s.db.mobileSessions, m₀.id = id ∧ m₀.userId = row.userId := by
      rcases hrefreshed.session row hrow with hrow | ⟨hid', huser⟩
      · exact h.owner row hrow id hid
      · exact ⟨m, hrefreshed.old, Option.some.inj (hid'.symm.trans hid), huser.symm⟩
    obtain ⟨m₀, hm₀, hid₀, huser₀⟩ := hold
    obtain ⟨m', hm', hid', huser'⟩ := hrefreshed.stays m₀ hm₀
    exact ⟨m', hm', hid'.trans hid₀, huser'.trans huser₀⟩
  · exact h.tasks_follow (.of_db (Nat.le_add_right ..) rfl rfl hback) (tasks_goto trivial)

theorem get_setPassword {users : Table User.id} {userId k : ℕ} {newHash : String} {now : ℤ} (hk : k ≠ userId) :
    (setPassword users userId newHash now).get k = users.get k := by
  unfold setPassword
  rw [Table.get_update]
  cases hget : users.get k with
  | none => rfl
  | some user =>
    obtain ⟨-, rfl⟩ := Table.get_eq_some.1 hget
    simp [hk]

theorem Inv.change (h : s.Inv) {t userId : ℕ} {newHash : String} {now : ℤ} {token : Option Secret} {keep : Option ℕ} {db : Db}
    (hkeep : ∀ id, keep = some id → ∀ m ∈ s.db.mobileSessions, m.id = id → s.Current m)
    (hchanged : Changed s.db db userId newHash now token keep) :
    ({ s.goto t .idle with
        db := db
        epoch := Function.update s.epoch userId (s.epoch userId + 1)
        webEpoch := fun id =>
          if (db.sessions.get id).any fun row => row.userId == userId && token == some row.token then s.epoch userId + 1
          else s.webEpoch id
        mobileEpoch := fun id =>
          if keep == some id && (db.mobileSessions.get id).any (·.userId == userId) then s.epoch userId + 1
          else s.mobileEpoch id } : State).Inv := by
  set s' : State := { s.goto t .idle with
    db := db
    epoch := Function.update s.epoch userId (s.epoch userId + 1)
    webEpoch := fun id =>
      if (db.sessions.get id).any fun row => row.userId == userId && token == some row.token then s.epoch userId + 1
      else s.webEpoch id
    mobileEpoch := fun id =>
      if keep == some id && (db.mobileSessions.get id).any (·.userId == userId) then s.epoch userId + 1
      else s.mobileEpoch id } with hs'
  have hother : ∀ k, k ≠ userId → s'.epoch k = s.epoch k := fun k hk => Function.update_of_ne hk ..
  -- what is left of the user's mobile sessions is kept
  have hmine : ∀ m ∈ db.mobileSessions, m.userId = userId → s'.mobileEpoch m.id = s'.epoch userId := by
    intro m hm huser
    have hkept : keep = some m.id := by
      obtain ⟨m₀, -, hid, huser₀, hcase⟩ := hchanged.mobile m hm
      rw [hid]
      exact (hcase.resolve_right fun hne => hne.1 (huser₀.symm.trans huser)).1
    simp [hs', hkept, Table.get_key hm, huser]
  have htheirs : ∀ m ∈ db.mobileSessions, m.userId ≠ userId → s'.mobileEpoch m.id = s.mobileEpoch m.id := by
    intro m hm huser
    simp [hs', Table.get_key hm, huser]
  have hstays : ∀ m' ∈ db.mobileSessions, ∀ m, m'.id = m.id → m'.userId = m.userId → s.Current m → s'.Current m' := by
    intro m' hm' m hid huser hcurrent
    unfold Current at hcurrent ⊢
    by_cases hmine' : m'.userId = userId
    · rw [hmine m' hm' hmine', hmine']
    · rw [htheirs m' hm' hmine', hother _ hmine', hid, huser]
      exact hcurrent
  have howner : ∀ row ∈ db.sessions, ∀ id, row.mobileSessionId = some id →
      ∃ m ∈ db.mobileSessions, m.id = id ∧ m.userId = row.userId := by
    intro row hrow id hid
    obtain ⟨m', hm', rfl⟩ := hchanged.refs h.refs row hrow id hid
    obtain ⟨m, hm, hmid, huser, -⟩ := hchanged.mobile m' hm'
    obtain ⟨m₀, hm₀, hid₀, huser₀⟩ := h.owner row (hchanged.session row hrow).1 _ hid
    refine ⟨m', hm', rfl, ?_⟩
    rw [huser, Table.mem_inj hm hm₀ (hmid.symm.trans hid₀.symm), huser₀]
  refine ⟨fun m' hm' => ?_, fun m' hm' => ?_, fun row hrow => ?_, howner, ?_⟩
  · obtain ⟨m, hm, hid, -⟩ := hchanged.mobile m' hm'
    rw [hid]
    exact h.old m hm
  · obtain ⟨m, hm, hid, huser, hcase⟩ := hchanged.mobile m' hm'
    rcases hcase with ⟨hkept, -⟩ | ⟨hne, hcreated⟩
    · exact Or.inl (hstays m' hm' m hid huser (hkeep m.id hkept m hm rfl))
    · rcases h.mobile m hm with hcurrent | ⟨user, changed, hget, hstamp, hlt⟩
      · exact Or.inl (hstays m' hm' m hid huser hcurrent)
      · refine Or.inr ⟨user, changed, ?_, hstamp, hcreated ▸ hlt⟩
        show db.users.get m'.userId = _
        rw [hchanged.users, huser, get_setPassword hne, hget]
  · obtain ⟨hold, hspared⟩ := hchanged.session row hrow
    have hget : db.sessions.get row.id = some row := Table.get_key hrow
    by_cases hmine' : row.userId = userId
    · unfold Proved
      rw [hmine']
      cases hid : row.mobileSessionId with
      | none => simp [hs', hget, hmine', hspared hmine']
      | some id =>
        obtain ⟨m, hm, rfl, huser⟩ := howner row hrow id hid
        exact hmine m hm (huser.trans hmine')
    · refine (h.proved row hold).congr (hother _ hmine') (fun _ => ?_) fun id hid => ?_
      · simp [hs', hget, hmine']
      · obtain ⟨m, hm, rfl, huser⟩ := howner row hrow id hid
        exact htheirs m hm (huser ▸ hmine')
  · refine h.tasks_follow ⟨le_rfl, fun m' hm' _ => ?_⟩ (tasks_goto trivial)
    obtain ⟨m, hm, hid, huser, -⟩ := hchanged.mobile m' hm'
    exact ⟨m, hm, hid, huser, hstays m' hm' m hid huser⟩

end State

/-! ## Runs -/

section Runs

variable (C : Crates) (config : MobileConfig) (s : State)

/-- what is accepted was proved in the current epoch -/
structure Safe : Prop where
  access : ∀ token now user row, validateSession s.db token now = some (user, row) → s.Proved row
  refresh : ∀ old req fresh salt now db response, refreshCommit config s.db old req fresh salt now = .ok (db, response) →
    s.mobileEpoch old.id = s.epoch old.userId

/-- a call that does not commit changes nothing -/
def Atomic : Op → Prop
  | op@(.changePassword ..) | op@(.resolveKeep _) | op@(.commitChange ..) =>
    (step C config s op).epoch = s.epoch → (step C config s op).db = s.db
  | _ => True

/-- the caller's mobile session is reissued, and its access sessions stay -/
def KeptWorks : Op → Prop
  | op@(.commitChange t _) => (step C config s op).epoch ≠ s.epoch → ∀ user newHash now token own keep,
    s.tasks t = .resolved user newHash now token own keep → ∀ m ∈ s.db.mobileSessions, own = some m.id → m.userId = user.id →
      m.reissue now ∈ (step C config s op).db.mobileSessions ∧ ¬ (step C config s op).Stale (m.reissue now) ∧
        ∀ row ∈ s.db.sessions, row.mobileSessionId = some m.id → row ∈ (step C config s op).db.sessions
  | _ => True

variable {C config s}

theorem inv_init (users : Table User.id) : (State.init users).Inv where
  old _ hm := absurd hm (Table.not_mem_empty _)
  mobile _ hm := absurd hm (Table.not_mem_empty _)
  proved _ hrow := absurd hrow (Table.not_mem_empty _)
  owner _ hrow := absurd hrow (Table.not_mem_empty _)
  tasks _ := trivial

theorem safe_of_inv (h : s.Inv) : Safe config s where
  access token now user row hvalid := by
    unfold validateSession at hvalid
    obtain ⟨row', hfind, hvalid⟩ := Option.bind_eq_some_iff.1 hvalid
    split_ifs at hvalid
    obtain ⟨user', -, heq⟩ := Option.map_eq_some_iff.1 hvalid
    cases heq
    exact h.proved row (List.mem_of_find?_eq_some hfind)
  refresh old req fresh salt now db response hcommit := by
    obtain ⟨m, hrefreshed, hid, huser⟩ := refreshCommit_refreshed hcommit
    rw [← hid, ← huser]
    rcases h.mobile m hrefreshed.old with hcurrent | ⟨user, changed, hget, hchanged, hlt⟩
    · exact hcurrent
    · exact absurd hlt (not_lt.2 (hrefreshed.accepted user changed hget hchanged))

/-- the row that the caller's token finds is of a current mobile session -/
theorem mobileSessionOf_current (h : s.Inv) {token : Option Secret} {id : ℕ} (hid : mobileSessionOf s.db token = some id) :
    id < s.fresh ∧ ∀ m ∈ s.db.mobileSessions, m.id = id → s.Current m := by
  unfold mobileSessionOf at hid
  obtain ⟨token, -, hid⟩ := Option.bind_eq_some_iff.1 hid
  obtain ⟨row, hfind, hid⟩ := Option.bind_eq_some_iff.1 hid
  have hrow : row ∈ s.db.sessions := List.mem_of_find?_eq_some hfind
  obtain ⟨m, hm, rfl, huser⟩ := h.owner row hrow id hid
  refine ⟨h.old m hm, fun m' hm' hm'id => ?_⟩
  rw [Table.mem_inj hm' hm hm'id]
  have hproved := h.proved row hrow
  unfold State.Proved at hproved
  rw [hid, ← huser] at hproved
  exact hproved

attribute [local simp] step in
theorem inv_step (h : s.Inv) (op : Op) (hop : Guarded config s op) : (step C config s op).Inv := by
  cases op with
  | login t username password totpCode => exact h.proceed fun _ _ => trivial
  | mobileLogin t username password totpCode => exact h.proceed fun _ _ => trivial
  | refresh t req now => exact h.proceed fun _ _ => trivial
  | changePassword t userId oldPassword newPassword newHash token now => exact h.proceed fun _ _ => trivial
  | createWebSession t ttl now =>
    simp only [step]
    split
    · rename_i user epoch ht
      split
      · exact h.goto trivial
      · rename_i db hinsert
        obtain ⟨-, rows, hrows, rfl⟩ := insertSession_some hinsert
        exact h.webSession hrows (hop user epoch ht)
    · exact h
  | insertMobileSession t installationId salt now =>
    simp only [step]
    split
    · rename_i user epoch ht
      split
      · exact h.goto trivial
      · rename_i db hinsert
        obtain ⟨rows, hrows, rfl⟩ := insertMobileSession_some hinsert
        exact h.begin hrows (hop user epoch ht)
    · exact h
  | insertSession t =>
    simp only [step]
    split
    · rename_i access ht
      split
      · exact h.goto trivial
      · rename_i db hinsert
        obtain ⟨hrefs, rows, hrows, rfl⟩ := insertSession_some hinsert
        exact h.finish ht hrefs hrows (hop access ht)
    · exact h
  | rotate t salt now commits =>
    simp only [step]
    split
    · rename_i old req ht
      split
      · rename_i db response hcommit
        obtain ⟨m, hrefreshed, -⟩ := refreshCommit_refreshed hcommit
        exact h.rotate hrefreshed
      · exact h.goto trivial
    · exact h
  | resolveKeep t =>
    simp only [step]
    split
    · exact h.goto fun id hid => mobileSessionOf_current h hid
    · exact h
  | commitChange t commits =>
    simp only [step]
    split
    · rename_i user newHash now token own keep ht
      have hkeep : s.TaskOk (.resolved user newHash now token own keep) := ht ▸ h.tasks t
      split
      · rename_i db hcommit
        exact h.change (fun id hid => (hkeep id hid).2) (changeCommit_changed hcommit)
      · exact h.goto trivial
    · exact h
  | endSessions ended =>
    exact h.shrink rfl (fun _ hm => hm) (fun row hrow => (Table.mem_delete.1 hrow).1)
      fun hrefs row hrow => hrefs row (Table.mem_delete.1 hrow).1
  | logout id commits =>
    simp only [step]
    split
    · rename_i db hcommit
      obtain ⟨husers, hmobile, hsessions⟩ := cascade_ok hcommit
      exact h.shrink husers hmobile hsessions (cascade_shrinks hcommit).refs
    · exact h

theorem proceed_db {α : Type} {t : ℕ} {task : α → Task} {x : Except AppError α} : (s.proceed t task x).db = s.db := by
  cases x <;> rfl

variable (C config) in
theorem commitChange_cases (commits : Bool) {t : ℕ} {user : User} {newHash : String} {now : ℤ} {token : Option Secret}
    {own keep : Option ℕ} (ht : s.tasks t = .resolved user newHash now token own keep) :
    step C config s (.commitChange t commits) = s.goto t .idle ∨
      ∃ db, changeCommit s.db user.id newHash now token keep = .ok db ∧
        (step C config s (.commitChange t commits)).db = db ∧
        (step C config s (.commitChange t commits)).epoch = Function.update s.epoch user.id (s.epoch user.id + 1) := by
  simp only [step, ht]
  split
  · rename_i db hcommit
    exact Or.inr ⟨db, hcommit, rfl, rfl⟩
  · exact Or.inl rfl

theorem atomic_step (op : Op) : Atomic C config s op := by
  cases op with
  | changePassword t userId oldPassword newPassword newHash token now => exact fun _ => proceed_db
  | resolveKeep t =>
    intro _
    simp only [step]
    split <;> rfl
  | commitChange t commits =>
    intro hepoch
    by_cases hresolved : ∃ user newHash now token own keep, s.tasks t = .resolved user newHash now token own keep
    · obtain ⟨user, newHash, now, token, own, keep, ht⟩ := hresolved
      rcases commitChange_cases C config commits ht with hidle | ⟨db, -, -, hnext⟩
      · rw [hidle]
        rfl
      · -- a commit begins an epoch
        have huser := congrFun (hnext.symm.trans hepoch) user.id
        simp at huser
    · simp only [step]
      split
      · exact absurd ⟨_, _, _, _, _, _, ‹_›⟩ hresolved
      · rfl
  | _ => trivial

theorem keptWorks_step (op : Op) (hop : Guarded config s op) : KeptWorks C config s op := by
  cases op with
  | commitChange t commits =>
    intro hepoch user newHash now token own keep ht m hm hown huser
    obtain ⟨hkeep, honly⟩ := hop user newHash now token own keep ht m hm hown huser
    rcases commitChange_cases C config commits ht with hidle | ⟨db, hcommit, hdb, -⟩
    · exact absurd (congrArg State.epoch hidle) hepoch
    · have hchanged := changeCommit_changed hcommit
      unfold State.Stale
      rw [hdb]
      refine ⟨hchanged.kept m hm hkeep, ?_, fun row hrow hid => ?_⟩
      · rintro ⟨user', changed, hget, hstamp, hlt⟩
        rw [hchanged.users, setPassword, Table.get_update] at hget
        obtain ⟨user₀, hget₀, rfl⟩ := Option.map_eq_some_iff.1 hget
        obtain ⟨-, hid₀⟩ := Table.get_eq_some.1 hget₀
        rw [if_pos (beq_iff_eq.2 (hid₀.trans huser))] at hstamp
        cases hstamp
        exact lt_irrefl _ hlt
      · exact hchanged.keptSession row hrow (fun _ => honly row hrow hid) (hid.trans hkeep.symm)
  | _ => trivial

/-- **A password change cuts off the old password.** While logins insert their rows under the password that they verified and
no rotation overtakes the change, each step of each run accepts only sessions of the current epoch, a change that fails changes
nothing, and the caller's mobile session works on. -/
theorem password_change_cuts_off (C : Crates) (config : MobileConfig) (users : Table User.id) (ops : List Op)
    (hops : Along (step C config) (Guarded config) (State.init users) ops) :
    Safe config (runs (step C config) (State.init users) ops) ∧
      Along (step C config) (fun s op => Safe config s ∧ Atomic C config s op ∧ KeptWorks C config s op) (State.init users)
        ops := by
  have hstep : ∀ s op, s.Inv → Guarded config s op → (step C config s op).Inv := fun _ op h hop => inv_step h op hop
  have hinv : (runs (step C config) (State.init users) ops).Inv := hops.invariant hstep (inv_init users)
  refine ⟨safe_of_inv hinv, hops.of_invariant hstep (fun s op h hop => ?_) (inv_init users)⟩
  exact ⟨safe_of_inv h, atomic_step op, keptWorks_step op hop⟩

end Runs

/-! ## What the guards keep out -/

def plainCrates : Crates := ⟨fun password hash => password == hash, fun _ _ => true, fun _ => true⟩

def oneUser : Table User.id := ⟨[⟨0, "ada", "first", none, "member", false, none⟩], by decide⟩

/-- a kept mobile session, refreshed after the change, and a login with the new password -/
def keptRun : List Op :=
  [.mobileLogin 0 "ada" "first" none, .insertMobileSession 0 7 0 1, .insertSession 0,
    .changePassword 1 0 "first" "second one" "second one" (some (.drawn 0)) 2, .resolveKeep 1, .commitChange 1 true,
    .refresh 2 ⟨.drawn 1, 7, none⟩ 3, .rotate 2 1 3 true, .login 3 "ada" "second one" none, .createWebSession 3 60 4]

theorem keptRun_cuts_off :
    Along (step plainCrates ⟨100, 10⟩) (Guarded ⟨100, 10⟩) (State.init oneUser) keptRun ∧
      Safe ⟨100, 10⟩ (runs (step plainCrates ⟨100, 10⟩) (State.init oneUser) keptRun) := by
  have hguarded : Along (step plainCrates ⟨100, 10⟩) (Guarded ⟨100, 10⟩) (State.init oneUser) keptRun := by
    refine ⟨trivial, fun user epoch h => ?_, fun access h m hm hid => ?_, trivial, trivial, ?_, trivial, trivial, trivial,
      fun user epoch h => ?_, trivial⟩
    · cases h
      exact Or.inl rfl
    · obtain rfl := List.mem_singleton.1 (show m ∈ [⟨3, 0, ⟨.drawn 1, 0⟩, some (.drawn 2), 7, 1, 101⟩] from hm)
      rfl
    · intro user newHash now token own keep h m hm hown huser
      cases h
      refine ⟨hown, fun row hrow hid => ?_⟩
      obtain rfl := List.mem_singleton.1 (show row ∈ [⟨4, 0, .drawn 0, 11, 1, .mobile, some 3⟩] from hrow)
      rfl
    · cases h
      rfl
  exact ⟨hguarded, (password_change_cuts_off _ _ _ _ hguarded).1⟩

/-- a login that verified the first password and inserts its session after the change -/
def lateWebLogin : List Op :=
  [.login 0 "ada" "first" none, .changePassword 1 0 "first" "second one" "second one" none 2, .resolveKeep 1,
    .commitChange 1 true, .createWebSession 0 60 3]

def lateMobileLogin : List Op :=
  [.mobileLogin 0 "ada" "first" none, .changePassword 1 0 "first" "second one" "second one" none 2, .resolveKeep 1,
    .commitChange 1 true, .insertMobileSession 0 7 0 3, .insertSession 0]

/-- the caller's mobile session is refreshed while the change is under way -/
def overtakenKeep : List Op :=
  [.mobileLogin 0 "ada" "first" none, .insertMobileSession 0 7 0 1, .insertSession 0, .refresh 2 ⟨.drawn 1, 7, none⟩ 2,
    .changePassword 1 0 "first" "second one" "second one" (some (.drawn 0)) 2, .resolveKeep 1, .rotate 2 1 3 true]

theorem old_password_survives :
    ¬ Safe ⟨100, 10⟩ (runs (step plainCrates ⟨100, 10⟩) (State.init oneUser) lateWebLogin) ∧
      ¬ Safe ⟨100, 10⟩ (runs (step plainCrates ⟨100, 10⟩) (State.init oneUser) lateMobileLogin) ∧
      ¬ KeptWorks plainCrates ⟨100, 10⟩ (runs (step plainCrates ⟨100, 10⟩) (State.init oneUser) overtakenKeep)
        (.commitChange 1 true) := by
  refine ⟨fun h => ?_, fun h => ?_, fun h => ?_⟩
  · have hproved := h.access (.drawn 1) 4 ⟨0, "ada", "second one", none, "member", false, some 2⟩
      ⟨0, 0, .drawn 1, 63, 3, .web, none⟩ (by decide +kernel)
    unfold State.Proved at hproved
    revert hproved
    decide +kernel
  · have haccepted : (refreshCommit ⟨100, 10⟩ (runs (step plainCrates ⟨100, 10⟩) (State.init oneUser) lateMobileLogin).db
        ⟨3, 0, ⟨.drawn 1, 0⟩, some (.drawn 2), 7, 3, 103⟩ ⟨.drawn 1, 7, none⟩ 5 1 4).isOk = true := by decide +kernel
    cases hcommit : refreshCommit ⟨100, 10⟩ (runs (step plainCrates ⟨100, 10⟩) (State.init oneUser) lateMobileLogin).db
        ⟨3, 0, ⟨.drawn 1, 0⟩, some (.drawn 2), 7, 3, 103⟩ ⟨.drawn 1, 7, none⟩ 5 1 4 with
    | error e =>
      rw [hcommit] at haccepted
      cases haccepted
    | ok p =>
      have hepoch := h.refresh _ _ _ _ _ p.1 p.2 hcommit
      revert hepoch
      decide +kernel
  · have hworks := h (fun heq => absurd (congrFun heq 0) (by decide +kernel))
      ⟨0, "ada", "first", none, "member", false, none⟩ "second one" 2 (some (.drawn 0)) (some 3) (some 3)
      (by decide +kernel) ⟨3, 0, ⟨.drawn 6, 1⟩, some (.drawn 2), 7, 1, 103⟩
      (Table.mem_rows.1 (by decide +kernel)) rfl rfl
    have hgone := hworks.2.2 ⟨7, 0, .drawn 5, 13, 3, .mobile, some 3⟩ (Table.mem_rows.1 (by decide +kernel)) rfl
    rw [← Table.mem_rows] at hgone
    revert hgone
    decide +kernel

end ServerBee.Passwords
