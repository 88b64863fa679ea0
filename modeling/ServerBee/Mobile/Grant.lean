/-
Recovery removes at most the captured login (`service/mobile_auth_recovery.rs`, `service/mobile_recovery_grant.rs`).

One recovery deletes the session that its credentials identify, or the expected one when they identify no other
(`recoverValidated_spec`). A grant serves many calls, one at a time behind the lock of its progress; it pins a session before
it is asked for, but the session that the credentials identify only after the transaction. A call that is cut off between
the two (`Fate.lost`) leaves the grant free to choose again.
-/
import Mathlib.Data.List.ReduceOption
import ServerBee.Lib.Run
import ServerBee.Mobile.Credentials

namespace ServerBee.Mobile

open ServerBee.Lib

/-! ## One recovery -/

/-- a captured secret names the session, or the check of the refresh secret found it and its row has kept that hash -/
def Identified (db : Db) (req : RecoveryRequest) (refreshMatches : List MobileSession) (id : ℕ) : Prop :=
  (∃ row ∈ db.sessions, req.accessToken = some row.token ∧ row.mobileSessionId = some id) ∨
  (∃ secret ∈ req.refreshToken.toList ++ req.revocationToken.toList, db.Names secret id) ∨
  ∃ v ∈ refreshMatches, ∃ m ∈ db.mobileSessions, m.id = v.id ∧ m.refreshTokenHash = v.refreshTokenHash ∧ m.id = id

/-- a session of the expected user and installation -/
def Owned (db : Db) (req : RecoveryRequest) (id : ℕ) : Prop :=
  ∃ m ∈ db.mobileSessions, m.id = id ∧ m.userId = req.expectedUserId ∧ m.installationId = req.installationId

theorem mapM_ok {α β : Type} {f : α → Except AppError β} {l : List α} {bs : List β} (h : l.mapM f = .ok bs) :
    (∀ a ∈ l, ∃ b ∈ bs, f a = .ok b) ∧ ∀ b ∈ bs, ∃ a ∈ l, f a = .ok b := by
  induction l generalizing bs with
  | nil =>
    rw [List.mapM_nil] at h
    cases h
    exact ⟨fun _ ha => (List.not_mem_nil ha).elim, fun _ hb => (List.not_mem_nil hb).elim⟩
  | cons a l ih =>
    rw [List.mapM_cons] at h
    obtain ⟨b, hb, h⟩ := bind_ok.1 h
    obtain ⟨bs', hbs', h⟩ := bind_ok.1 h
    cases h
    obtain ⟨hall, hfrom⟩ := ih hbs'
    constructor
    · intro a' ha'
      rcases List.mem_cons.1 ha' with rfl | ha'
      · exact ⟨b, List.mem_cons_self, hb⟩
      · obtain ⟨b', hb', hf⟩ := hall a' ha'
        exact ⟨b', List.mem_cons_of_mem _ hb', hf⟩
    · intro b' hb'
      rcases List.mem_cons.1 hb' with rfl | hb'
      · exact ⟨a, List.mem_cons_self, hb⟩
      · obtain ⟨a', ha', hf⟩ := hfrom b' hb'
        exact ⟨a', List.mem_cons_of_mem _ ha', hf⟩

section Resolve

variable {db : Db} {req : RecoveryRequest} {refreshMatches : List MobileSession}

theorem ensureOwner_ok {target : MobileSession} {id : ℕ} (hrow : target ∈ db.mobileSessions) (h : ensureOwner req target = .ok id) :
    id = target.id ∧ Owned db req id := by
  unfold ensureOwner at h
  obtain ⟨_, howner, h⟩ := bind_ok.1 h
  cases h
  have howner := guardOr_ok.1 howner
  simp only [Bool.and_eq_true, beq_iff_eq] at howner
  exact ⟨rfl, target, hrow, rfl, howner.1, howner.2⟩

theorem addIdentity_ok {id id' : ℕ} (h : addIdentity db req id = .ok id') : id' = id ∧ Owned db req id' := by
  unfold addIdentity at h
  obtain ⟨target, hget, howner⟩ := bind_ok.1 h
  obtain ⟨hrow, rfl⟩ := Table.get_eq_some.1 (okOr_ok.1 hget)
  exact ensureOwner_ok hrow howner

/-- the resolved identities are the identified sessions, each of the expected owner -/
theorem resolveCapturedIdentities_ok {ids : List ℕ} (h : resolveCapturedIdentities db req refreshMatches = .ok ids) :
    (∀ id, id ∈ ids ↔ Identified db req refreshMatches id) ∧ ∀ id ∈ ids, Owned db req id := by
  unfold resolveCapturedIdentities at h
  obtain ⟨access, haccess, h⟩ := bind_ok.1 h
  obtain ⟨stable, hstable, h⟩ := bind_ok.1 h
  obtain ⟨history, hhistory, h⟩ := bind_ok.1 h
  obtain ⟨current, hcurrent, h⟩ := bind_ok.1 h
  cases h
  obtain ⟨haccessAll, haccessFrom⟩ := mapM_ok haccess
  obtain ⟨hstableAll, hstableFrom⟩ := mapM_ok hstable
  obtain ⟨hhistoryAll, hhistoryFrom⟩ := mapM_ok hhistory
  obtain ⟨hcurrentAll, hcurrentFrom⟩ := mapM_ok hcurrent
  -- one lemma for each source: what its rows resolve to
  have hof_access (row : AccessSession) (id : ℕ) (hf : (do
      guardOr (row.userId == req.expectedUserId && row.source == Source.mobile) .unauthorized
      let id ← okOr row.mobileSessionId unresolved
      addIdentity db req id) = .ok id) : row.mobileSessionId = some id ∧ Owned db req id := by
    obtain ⟨_, -, hf⟩ := bind_ok.1 hf
    obtain ⟨id', hid', hf⟩ := bind_ok.1 hf
    obtain ⟨rfl, howned⟩ := addIdentity_ok hf
    exact ⟨okOr_ok.1 hid', howned⟩
  have hof_current (p : MobileSession × MobileSession) (found : Option ℕ) (hrow : p.2 ∈ db.mobileSessions) (hf : (do
      let id ← ensureOwner req p.2
      pure (if p.2.refreshTokenHash == p.1.refreshTokenHash then some id else none)) = .ok found) :
      (∀ id, found = some id ↔ p.2.refreshTokenHash = p.1.refreshTokenHash ∧ p.2.id = id) ∧ ∀ id, found = some id → Owned db req id := by
    obtain ⟨id', hid', hf⟩ := bind_ok.1 hf
    obtain ⟨rfl, howned⟩ := ensureOwner_ok hrow hid'
    cases hf
    by_cases hhash : p.2.refreshTokenHash = p.1.refreshTokenHash
    · simp [hhash, howned]
    · simp [hhash]
  have hrow_of (p : MobileSession × MobileSession)
      (hp : p ∈ refreshMatches.filterMap fun v => (db.mobileSessions.get v.id).map fun m => (v, m)) :
      p.1 ∈ refreshMatches ∧ p.2 ∈ db.mobileSessions ∧ p.2.id = p.1.id := by
    obtain ⟨v, hv, hp⟩ := List.mem_filterMap.1 hp
    obtain ⟨m, hget, rfl⟩ := Option.map_eq_some_iff.1 hp
    obtain ⟨hm, hid⟩ := Table.get_eq_some.1 hget
    exact ⟨hv, hm, hid⟩
  constructor
  · intro id
    simp only [List.mem_append]
    constructor
    · rintro (((hid | hid) | hid) | hid)
      · obtain ⟨row, hrow, hf⟩ := haccessFrom id hid
        obtain ⟨hrow, htoken⟩ := List.mem_filter.1 hrow
        exact Or.inl ⟨row, hrow, beq_iff_eq.1 htoken, (hof_access row id hf).1⟩
      · obtain ⟨m, hm, hf⟩ := hstableFrom id hid
        obtain ⟨hm, hsecret⟩ := List.mem_filter.1 hm
        obtain ⟨secret, hhash, hsecret⟩ := (Option.any_eq_true _ _).1 hsecret
        obtain ⟨rfl, -⟩ := ensureOwner_ok hm hf
        exact Or.inr (Or.inl ⟨secret, by simpa using hsecret, Or.inl ⟨m, hm, rfl, hhash⟩⟩)
      · obtain ⟨p, hp, hf⟩ := hhistoryFrom id hid
        obtain ⟨hp, hsecret⟩ := List.mem_filter.1 hp
        obtain ⟨rfl, -⟩ := addIdentity_ok hf
        exact Or.inr (Or.inl ⟨p.tokenHash, by simpa using hsecret, Or.inr hp⟩)
      · obtain ⟨p, hp, hf⟩ := hcurrentFrom (some id) (List.reduceOption_mem_iff.1 hid)
        obtain ⟨hv, hm, hpid⟩ := hrow_of p hp
        obtain ⟨hhash, hid'⟩ := ((hof_current p (some id) hm hf).1 id).1 rfl
        exact Or.inr (Or.inr ⟨p.1, hv, p.2, hm, hpid, hhash, hid'⟩)
    · rintro (⟨row, hrow, htoken, hid⟩ | ⟨secret, hsecret, hname⟩ | ⟨v, hv, m, hm, hmid, hhash, rfl⟩)
      · obtain ⟨id', hid', hf⟩ := haccessAll row (List.mem_filter.2 ⟨hrow, beq_iff_eq.2 htoken⟩)
        obtain rfl := Option.some.inj (hid.symm.trans (hof_access row id' hf).1)
        exact Or.inl (Or.inl (Or.inl hid'))
      · rcases hname with ⟨m, hm, rfl, hhash⟩ | hp
        · obtain ⟨id', hid', hf⟩ := hstableAll m (List.mem_filter.2 ⟨hm, by simpa [hhash] using hsecret⟩)
          obtain ⟨rfl, -⟩ := ensureOwner_ok hm hf
          exact Or.inl (Or.inl (Or.inr hid'))
        · obtain ⟨id', hid', hf⟩ := hhistoryAll ⟨id, secret⟩ (List.mem_filter.2 ⟨hp, by simpa using hsecret⟩)
          obtain ⟨rfl, -⟩ := addIdentity_ok hf
          exact Or.inl (Or.inr hid')
      · have hp : (v, m) ∈ refreshMatches.filterMap fun v => (db.mobileSessions.get v.id).map fun m => (v, m) := by
          refine List.mem_filterMap.2 ⟨v, hv, ?_⟩
          rw [← hmid, Table.get_key hm, Option.map_some]
        obtain ⟨found, hfound, hf⟩ := hcurrentAll (v, m) hp
        have hsome := ((hof_current (v, m) found hm hf).1 m.id).2 ⟨hhash, rfl⟩
        exact Or.inr (List.reduceOption_mem_iff.2 (hsome ▸ hfound))
  · intro id hid
    simp only [List.mem_append] at hid
    rcases hid with ((hid | hid) | hid) | hid
    · obtain ⟨row, -, hf⟩ := haccessFrom id hid
      exact (hof_access row id hf).2
    · obtain ⟨m, hm, hf⟩ := hstableFrom id hid
      exact (ensureOwner_ok (List.mem_filter.1 hm).1 hf).2
    · obtain ⟨p, -, hf⟩ := hhistoryFrom id hid
      exact (addIdentity_ok hf).2
    · obtain ⟨p, hp, hf⟩ := hcurrentFrom (some id) (List.reduceOption_mem_iff.1 hid)
      exact (hof_current p (some id) (hrow_of p hp).2.1 hf).2 id rfl

/-- the session that a recovery is about: the expected one, or the one that the credentials identify -/
def recoverySession (db : Db) (req : RecoveryRequest) (refreshMatches : List MobileSession) : Option ℕ :=
  match req.expected with
  | some expected => some expected
  | none =>
    match resolveCapturedIdentities db req refreshMatches with
    | .error _ => none
    | .ok ids =>
      match ids.dedup with
      | [id] => some id
      | _ => none

/-- what a recovery that deletes has established -/
structure Recovers (db db' : Db) (req : RecoveryRequest) (refreshMatches : List MobileSession) (id : ℕ) : Prop where
  deleted : Deleted db db' id
  owned : Owned db req id
  only : ∀ other, Identified db req refreshMatches other → other = id
  named : Identified db req refreshMatches id ∨ req.expected = some id
  session : recoverySession db req refreshMatches = some id
  present : req.absenceOnly = true → req.expected = some id

theorem recoverValidated_spec {db' : Db} {now : ℤ} (h : recoverValidated db req refreshMatches now = .ok (.ok db')) :
    ∃ id, Recovers db db' req refreshMatches id := by
  unfold recoverValidated at h
  obtain ⟨_, -, h⟩ := bind_ok.1 h
  obtain ⟨_, -, h⟩ := bind_ok.1 h
  obtain ⟨ids, hids, h⟩ := bind_ok.1 h
  obtain ⟨_, habsence, hrest⟩ := bind_ok.1 h
  clear h
  obtain ⟨hiff, howned⟩ := resolveCapturedIdentities_ok hids
  cases hexpected : req.expected with
  | some expected =>
    rw [hexpected] at hrest
    obtain ⟨_, hall, hrest⟩ := bind_ok.1 hrest
    have hall := List.all_eq_true.1 (guardOr_ok.1 hall)
    cases hget : db.mobileSessions.get expected with
    | none =>
      rw [hget] at hrest
      obtain ⟨_, -, hrest⟩ := bind_ok.1 hrest
      cases hrest
    | some target =>
      rw [hget] at hrest
      obtain ⟨id, howner, hrest⟩ := bind_ok.1 hrest
      obtain ⟨hrow, hid⟩ := Table.get_eq_some.1 hget
      obtain ⟨rfl, howned'⟩ := ensureOwner_ok hrow howner
      refine ⟨target.id, (recoverTarget_deleted hrest).1, howned', fun other hother => ?_, Or.inr (by rw [hid]; exact hexpected), ?_,
        fun _ => by rw [hid]; exact hexpected⟩
      · exact (beq_iff_eq.1 (hall other ((hiff other).2 hother))).trans hid.symm
      · unfold recoverySession
        rw [hexpected, hid]
  | none =>
    rw [hexpected] at hrest
    dsimp only at hrest
    have hdedup {ids' : List ℕ} (hd : ids.dedup = ids') (id : ℕ) : id ∈ ids' ↔ Identified db req refreshMatches id := by
      rw [← hd, List.mem_dedup]
      exact hiff id
    rcases hd : ids.dedup with _ | ⟨id, _ | ⟨id', rest⟩⟩
    · rw [hd] at hrest
      obtain ⟨candidates, -, hrest⟩ := bind_ok.1 hrest
      split_ifs at hrest <;> cases hrest
    · rw [hd] at hrest
      have hid : Identified db req refreshMatches id := (hdedup hd id).1 List.mem_cons_self
      refine ⟨id, (recoverTarget_deleted hrest).1, howned id ((hiff id).2 hid),
        fun other hother => List.mem_singleton.1 ((hdedup hd other).2 hother), Or.inl hid, ?_, fun habsent => ?_⟩
      · unfold recoverySession
        rw [hexpected, hids]
        dsimp only
        rw [hd]
      · -- an absence-only recovery with identities is refused
        have hempty := guardOr_ok.1 habsence
        rw [habsent, Bool.true_and, Bool.not_not, List.isEmpty_iff] at hempty
        rw [hempty] at hd
        cases hd
    · rw [hd] at hrest
      cases hrest

/-- the transaction of a recovery: an error rolls it back -/
def recovered (db : Db) : Except AppError Recovered → Db
  | .ok (.ok db') => db'
  | _ => db

end Resolve

/-! ## The grant -/

/-- an empty text is no secret; in `expectedSessionId`, `some none` is a text that is not a UUID -/
structure RecoveryParams where
  expectedUserId : ℕ
  installationId : ℕ
  expectedSessionId : Option (Option ℕ)
  accessToken : Secret
  refreshToken : Secret
  revocationToken : Option Secret

def nonEmpty (secret : Secret) : Option Secret := if secret = .text "" then none else some secret

def RecoveryParams.request (params : RecoveryParams) (account : User) (expected : Option ℕ) (deadline : ℤ) (absenceOnly : Bool) :
    RecoveryRequest where
  verifiedUser := account
  expectedUserId := params.expectedUserId
  installationId := params.installationId
  expected := expected
  accessToken := nonEmpty params.accessToken
  refreshToken := nonEmpty params.refreshToken
  revocationToken := params.revocationToken.bind nonEmpty
  verifiedUntil := some deadline
  absenceOnly := absenceOnly

def fingerprint (params : RecoveryParams) : Secret × Secret × Option Secret :=
  (params.accessToken, params.refreshToken, params.revocationToken)

def recoveryGrantTtl : ℤ := 300

structure RecoveryGrant where
  createdAt : ℤ
  account : User
  installationId : ℕ
  fingerprint : Secret × Secret × Option Secret

def RecoveryGrant.expiresAt (grant : RecoveryGrant) : ℤ := grant.createdAt + recoveryGrantTtl

/-- `offered` has the candidates of the response that is repeated -/
structure GrantProgress where
  selected : Option ℕ
  offered : Option (List MobileSession)
  absentWithoutId : Bool
deriving DecidableEq

def GrantProgress.new : GrantProgress := ⟨none, none, false⟩

def normalizeSessionId : Option (Option ℕ) → Except AppError (Option ℕ)
  | none => .ok none
  | some none => .error (.validation "Invalid expected_session_id")
  | some (some id) => .ok (some id)

/-- the call that holds the lock of the progress, between its awaits -/
inductive Holder where
  /-- the recheck of the account before the offer is repeated -/
  | repeating
  | collecting (req : RecoveryRequest)
  | validating (req : RecoveryRequest) (refreshMatches : List MobileSession)

/-- a call from its lock to its first await: it may pin the requested session -/
def RecoveryGrant.admission (grant : RecoveryGrant) (progress : GrantProgress) (params : RecoveryParams) (now : ℤ) :
    Except AppError (GrantProgress × Holder) := do
  guardOr (decide (now < grant.expiresAt) && grant.account.id == params.expectedUserId &&
    grant.installationId == params.installationId && grant.fingerprint == Mobile.fingerprint params) .unauthorized
  let requested ← normalizeSessionId params.expectedSessionId
  let dispatch := fun progress : GrantProgress => (progress, Holder.collecting
    (params.request grant.account progress.selected grant.expiresAt progress.absentWithoutId))
  match progress.selected, requested, progress.offered with
  | some selected, requested, _ => do
    guardOr (requested.all (· == selected)) .unauthorized
    pure (dispatch progress)
  | none, some requested, offered => do
    guardOr (!progress.absentWithoutId) .unauthorized
    guardOr (offered.all fun candidates => candidates.any (·.id == requested)) .unauthorized
    pure (dispatch { progress with selected := some requested })
  | none, none, some _ => pure (progress, .repeating)
  | none, none, none => pure (dispatch progress)

/-- the progress after a result; a refused result leaves it -/
def GrantProgress.record (progress : GrantProgress) (id : Option ℕ) : Recovered → GrantProgress
  | .selectionRequired candidates =>
    if progress.absentWithoutId then progress else { progress with offered := some candidates }
  | .ok _ =>
    if progress.absentWithoutId then progress
    else
      match id with
      | some id => { progress with selected := some id }
      | none => { progress with absentWithoutId := true }
  | .alreadyAbsent =>
    match id with
    | some id => { progress with selected := some id }
    | none => { progress with absentWithoutId := true }

/-- how a transaction ends for its call: with its result, without effect, or with its effect and no result -/
inductive Fate where
  | reported
  | rolledBack
  | lost
deriving DecidableEq

/-- `deleted` is a history: the mobile sessions that transactions of the grant have deleted -/
structure GrantState where
  db : Db
  progress : GrantProgress
  holder : Option Holder
  deleted : List ℕ

inductive GrantOp where
  | recover (params : RecoveryParams) (now : ℤ)
  | collect
  | validate (now : ℤ) (fate : Fate)
  /-- the call that holds the lock ends: it is cancelled, fails, or has repeated the offer -/
  | release
  /-- anything else that happens to the database -/
  | other (db : Db)

/-- the sessions that are gone -/
def removedSessions (db db' : Db) : List ℕ :=
  (db.mobileSessions.rows.map (·.id)).filter fun id => (db'.mobileSessions.get id).isNone

def GrantState.commit (s : GrantState) (db : Db) : GrantState :=
  { s with db := db, holder := none, deleted := s.deleted ++ removedSessions s.db db }

def grantStep (grant : RecoveryGrant) (s : GrantState) : GrantOp → GrantState
  | .recover params now =>
    match s.holder, grant.admission s.progress params now with
    | none, .ok (progress, holder) => { s with progress := progress, holder := some holder }
    | _, _ => s
  | .collect =>
    match s.holder with
    | some (.collecting req) =>
      match recoverCollect s.db req with
      | .ok refreshMatches => { s with holder := some (.validating req refreshMatches) }
      | .error _ => { s with holder := none }
    | _ => s
  | .validate now fate =>
    match s.holder with
    | some (.validating req refreshMatches) =>
      match recoverValidated s.db req refreshMatches now, fate with
      | .ok result, .reported =>
        { s.commit (recovered s.db (.ok result)) with
          progress := s.progress.record (recoverySession s.db req refreshMatches) result }
      | .ok result, .lost => s.commit (recovered s.db (.ok result))
      | _, _ => { s with holder := none }
    | _ => s
  | .release => { s with holder := none }
  | .other db => { s with db := db }

def GrantState.start (db : Db) : GrantState := ⟨db, .new, none, []⟩

/-! ## Runs of a grant -/

/-- no call that has nothing pinned, and whose credentials identify a session, loses the result of its transaction -/
def GrantSafe (s : GrantState) : GrantOp → Prop
  | .validate _ .lost => ∀ req refreshMatches, s.holder = some (.validating req refreshMatches) → req.expected = none →
    recoverySession s.db req refreshMatches = none
  | _ => True

/-- the request asks for what is pinned -/
def GrantProgress.Follows (progress : GrantProgress) (req : RecoveryRequest) : Prop :=
  req.expected = progress.selected ∧ req.absenceOnly = progress.absentWithoutId

structure GrantInv (s : GrantState) : Prop where
  pinned : ∀ id ∈ s.deleted, s.progress.selected = some id
  collecting : ∀ req, s.holder = some (.collecting req) → s.progress.Follows req
  validating : ∀ req refreshMatches, s.holder = some (.validating req refreshMatches) → s.progress.Follows req

section Grant

variable {grant : RecoveryGrant} {s : GrantState} {progress : GrantProgress}

/-- a call keeps the pinned session, and asks for what is pinned now -/
theorem admission_ok {params : RecoveryParams} {now : ℤ} {progress' : GrantProgress} {holder : Holder}
    (h : grant.admission progress params now = .ok (progress', holder)) :
    (∀ id, progress.selected = some id → progress'.selected = some id) ∧
      (holder = .repeating ∨ ∃ req, holder = .collecting req ∧ progress'.Follows req) := by
  unfold RecoveryGrant.admission at h
  obtain ⟨_, -, h⟩ := bind_ok.1 h
  obtain ⟨requested, -, hrest⟩ := bind_ok.1 h
  clear h
  dsimp only at hrest
  split at hrest
  · obtain ⟨_, -, hrest⟩ := bind_ok.1 hrest
    cases hrest
    exact ⟨fun id hid => hid, Or.inr ⟨_, rfl, rfl, rfl⟩⟩
  · rename_i hselected
    obtain ⟨_, -, hrest⟩ := bind_ok.1 hrest
    obtain ⟨_, -, hrest⟩ := bind_ok.1 hrest
    cases hrest
    refine ⟨fun id hid => ?_, Or.inr ⟨_, rfl, rfl, rfl⟩⟩
    rw [hselected] at hid
    cases hid
  · cases hrest
    exact ⟨fun id hid => hid, Or.inl rfl⟩
  · cases hrest
    exact ⟨fun id hid => hid, Or.inr ⟨_, rfl, rfl, rfl⟩⟩

theorem record_selected {req : RecoveryRequest} {db : Db} {refreshMatches : List MobileSession} {result : Recovered} {id : ℕ}
    (hfollows : progress.Follows req) (hid : progress.selected = some id) :
    (progress.record (recoverySession db req refreshMatches) result).selected = some id := by
  have hsession : recoverySession db req refreshMatches = some id := by
    unfold recoverySession
    rw [hfollows.1, hid]
  rw [hsession]
  cases result with
  | ok db' =>
    simp only [GrantProgress.record]
    split_ifs
    · exact hid
    · rfl
  | alreadyAbsent => rfl
  | selectionRequired candidates =>
    simp only [GrantProgress.record]
    split_ifs <;> exact hid

theorem removed_self (db : Db) : removedSessions db db = [] := by
  refine List.filter_eq_nil_iff.2 fun id hid => ?_
  obtain ⟨m, hm, rfl⟩ := List.mem_map.1 hid
  rw [Table.get_key hm]
  simp

theorem removed_deleted {db db' : Db} {id id' : ℕ} (h : Deleted db db' id) (hid' : id' ∈ removedSessions db db') : id' = id := by
  obtain ⟨hrow, hgone⟩ := List.mem_filter.1 hid'
  obtain ⟨m, hm, rfl⟩ := List.mem_map.1 hrow
  by_contra hne
  rw [Table.get_key ((h.mobile m).2 ⟨hm, hne⟩)] at hgone
  cases hgone

/-- the end of a transaction: whatever is deleted is what the progress has pinned by then -/
theorem GrantInv.commit (h : GrantInv s) (progress : GrantProgress) {req : RecoveryRequest} {refreshMatches : List MobileSession}
    {result : Recovered} {now : ℤ}
    (hresult : recoverValidated s.db req refreshMatches now = .ok result)
    (hold : ∀ id, s.progress.selected = some id → progress.selected = some id)
    (hnew : ∀ id, recoverySession s.db req refreshMatches = some id → Recovers s.db (recovered s.db (.ok result)) req refreshMatches id →
      progress.selected = some id) :
    GrantInv { s.commit (recovered s.db (.ok result)) with progress := progress } := by
  refine ⟨fun id hid => ?_, fun _ hno => (by cases hno), fun _ _ hno => by cases hno⟩
  rcases List.mem_append.1 hid with hid | hid
  · exact hold id (h.pinned id hid)
  · cases result with
    | ok db =>
      obtain ⟨id', hrecovers⟩ := recoverValidated_spec hresult
      obtain rfl := removed_deleted hrecovers.deleted hid
      exact hnew id hrecovers.session hrecovers
    | alreadyAbsent =>
      rw [show recovered s.db (.ok .alreadyAbsent) = s.db from rfl, removed_self] at hid
      cases hid
    | selectionRequired candidates =>
      rw [show recovered s.db (.ok (.selectionRequired candidates)) = s.db from rfl, removed_self] at hid
      cases hid

theorem GrantInv.step (h : GrantInv s) {op : GrantOp} (hsafe : GrantSafe s op) : GrantInv (grantStep grant s op) := by
  have hrelease : GrantInv { s with holder := none } := ⟨h.pinned, fun _ hno => (by cases hno), fun _ _ hno => by cases hno⟩
  cases op with
  | release => exact hrelease
  | other db => exact ⟨h.pinned, h.collecting, h.validating⟩
  | recover params now =>
    simp only [grantStep]
    split
    · rename_i progress holder hfree hadmission
      obtain ⟨hkept, hholder⟩ := admission_ok hadmission
      refine ⟨fun id hid => hkept id (h.pinned id hid), fun req hreq => ?_, fun req refreshMatches hreq => ?_⟩
      · rcases hholder with rfl | ⟨req', rfl, hfollows⟩
        · cases hreq
        · cases hreq
          exact hfollows
      · rcases hholder with rfl | ⟨req', rfl, -⟩
        · cases hreq
        · cases hreq
    · exact h
  | collect =>
    simp only [grantStep]
    split
    · rename_i req hholder
      split
      · refine ⟨h.pinned, fun _ hno => (by cases hno), fun req' refreshMatches hreq => ?_⟩
        cases hreq
        exact h.collecting req hholder
      · exact hrelease
    · exact h
  | validate now fate =>
    simp only [grantStep]
    split
    · rename_i req refreshMatches hholder
      have hfollows := h.validating req refreshMatches hholder
      split
      · rename_i result hresult
        refine h.commit _ hresult (fun id hid => record_selected hfollows hid) fun id hsession hrecovers => ?_
        -- a deletion by the grant is recorded, unless only absence was left to report
        by_cases habsent : s.progress.absentWithoutId = true
        · have hexpected := hrecovers.present (hfollows.2.trans habsent)
          exact record_selected hfollows (hfollows.1.symm.trans hexpected)
        · rw [hsession]
          cases result with
          | ok db => simp [GrantProgress.record, habsent]
          | alreadyAbsent => rfl
          | selectionRequired candidates =>
            obtain ⟨m, hm, rfl, -⟩ := hrecovers.owned
            exact absurd rfl ((hrecovers.deleted.mobile m).1 hm).2
      · rename_i result hresult
        refine h.commit s.progress hresult (fun id hid => hid) fun id hsession _ => ?_
        cases hexpected : req.expected with
        | none =>
          rw [hsafe req refreshMatches hholder hexpected] at hsession
          cases hsession
        | some expected =>
          unfold recoverySession at hsession
          rw [hexpected] at hsession
          obtain rfl := Option.some.inj hsession
          exact hfollows.1.symm.trans hexpected
      · exact hrelease
    · exact h

theorem start_inv (db : Db) : GrantInv (.start db) := ⟨fun _ hid => (List.not_mem_nil hid).elim, fun _ hno => (by cases hno), fun _ _ hno => by cases hno⟩

end Grant

/-! ### A lost result -/

def ada : User := ⟨1, "ada", "hash", none, "member", false, none⟩

/-- two logins of one installation; the access token of the first was captured -/
def twoLogins : Db where
  users := ⟨[ada], by decide⟩
  mobileSessions := ⟨[⟨10, 1, ⟨.drawn 1, 0⟩, none, 7, 0, 100⟩, ⟨11, 1, ⟨.drawn 2, 0⟩, none, 7, 0, 100⟩], by decide⟩
  sessions := ⟨[⟨20, 1, .drawn 3, 100, 0, .mobile, some 10⟩, ⟨21, 1, .drawn 4, 100, 0, .mobile, some 11⟩], by decide⟩
  proofs := ∅
  deviceTokens := ∅
  registrations := ∅

def captured (expected : Option ℕ) : RecoveryParams := ⟨1, 7, expected.map some, .drawn 3, .text "", none⟩

def adaGrant : RecoveryGrant := ⟨0, ada, 7, fingerprint (captured none)⟩

def recoveryCall (expected : Option ℕ) (fate : Fate) : List GrantOp :=
  [.recover (captured expected) 1, .collect, .validate 2 fate]

end ServerBee.Mobile
