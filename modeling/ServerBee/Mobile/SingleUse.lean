/-
Refresh secrets are single use and revocation is final.

`Inv` relates the rows to the histories: every refresh hash is of a secret issued to its row, a consumed secret is in no
row, an access session refers to a row and is the one of the last refresh, and the refresh secret of a half-done login is
not known to any client. Each field is kept by each move (`Move`), and the results are read off it.
-/
import ServerBee.Mobile.Effects

namespace ServerBee.Mobile

open ServerBee.Lib

/-! ## The invariant -/

def Db.sessionsOf (db : Db) (id : ℕ) : List AccessSession :=
  db.sessions.rows.filter fun row => row.mobileSessionId == some id

theorem Db.mem_sessionsOf {db : Db} {id : ℕ} {row : AccessSession} :
    row ∈ db.sessionsOf id ↔ row ∈ db.sessions ∧ row.mobileSessionId = some id := by
  simp only [Db.sessionsOf, List.mem_filter, beq_iff_eq, Table.mem_rows]

theorem Db.sessionsOf_singleton {db : Db} {id : ℕ} {row : AccessSession} (h : ∀ row', row' ∈ db.sessionsOf id ↔ row' = row) :
    db.sessionsOf id = [row] := by
  have hnodup : (db.sessionsOf id).Nodup := (List.Nodup.of_map _ db.sessions.unique).filter _
  refine List.perm_singleton.1 ((List.perm_ext_iff_of_nodup hnodup (List.nodup_singleton row)).2 fun row' => ?_)
  rw [h row', List.mem_singleton]

/-- the last successful refresh of a session -/
def St.lastRefresh (s : St) (id : ℕ) : Option (Secret × MobileTokenResponse) :=
  s.refreshed.find? fun r => r.2.mobileSessionId == id

/-- a login between its two inserts -/
structure Halfway (s : St) (access : AccessSession) (response : MobileTokenResponse) : Prop where
  link : access.mobileSessionId = some response.mobileSessionId
  secrets : ∀ secret ∈ response.secrets, (secret, response.mobileSessionId) ∈ s.issued
  secret : ∀ m ∈ s.db.mobileSessions, m.id = response.mobileSessionId → m.refreshTokenHash.secret = response.refreshToken
  hidden : response.refreshToken ∉ s.revealed
  alone : ∀ row ∈ s.db.sessions, row.mobileSessionId ≠ some response.mobileSessionId
  unrefreshed : ∀ r ∈ s.refreshed, r.2.mobileSessionId ≠ response.mobileSessionId

structure Inv (s : St) : Prop where
  refs : s.db.Refs
  issued_drawn : ∀ p ∈ s.issued, ∃ n, p.1 = .drawn n ∧ n < s.fresh
  issued_id : ∀ p ∈ s.issued, p.2 < s.fresh
  issued_once : (s.issued.map Prod.fst).Nodup
  revealed_drawn : ∀ n, .drawn n ∈ s.revealed → n < s.fresh
  hash_issued : ∀ m ∈ s.db.mobileSessions, (m.refreshTokenHash.secret, m.id) ∈ s.issued
  refreshed_issued : ∀ r ∈ s.refreshed, (r.1, r.2.mobileSessionId) ∈ s.issued
  refreshed_once : (s.refreshed.map Prod.fst).Nodup
  refreshed_gone : ∀ r ∈ s.refreshed, ∀ m ∈ s.db.mobileSessions, m.refreshTokenHash.secret ≠ r.1
  one_session : ∀ row ∈ s.db.sessions, ∀ row' ∈ s.db.sessions, ∀ id,
    row.mobileSessionId = some id → row'.mobileSessionId = some id → row = row'
  last_session : ∀ row ∈ s.db.sessions, ∀ id, row.mobileSessionId = some id →
    ∀ r, s.lastRefresh id = some r → row.token = r.2.accessToken
  halfway : ∀ t access response, s.tasks t = .halfway access response → Halfway s access response
  halfway_inj : ∀ t t' access access' response response', s.tasks t = .halfway access response →
    s.tasks t' = .halfway access' response' → response.mobileSessionId = response'.mobileSessionId → t = t'
  verified : ∀ t old req, s.tasks t = .verified old req →
    old.refreshTokenHash.secret = req.token ∧ s.knows req.token = true

theorem inv_init : Inv St.init := by
  constructor <;> simp [St.init, Db.Refs]

theorem Inv.issued_eq {s : St} (h : Inv s) {secret : Secret} {id id' : ℕ} (hid : (secret, id) ∈ s.issued)
    (hid' : (secret, id') ∈ s.issued) : id = id' :=
  congrArg Prod.snd (List.inj_on_of_nodup_map h.issued_once hid hid' rfl)

theorem Inv.issued_lt {s : St} (h : Inv s) {n id : ℕ} (hid : (.drawn n, id) ∈ s.issued) : n < s.fresh := by
  obtain ⟨n', heq, hlt⟩ := h.issued_drawn _ hid
  cases heq
  exact hlt

/-- a secret that is yet to be drawn belongs to no session -/
theorem Inv.not_issued {s : St} (h : Inv s) {n id : ℕ} (hn : s.fresh ≤ n) : (.drawn n, id) ∉ s.issued :=
  fun hid => absurd (h.issued_lt hid) (by omega)

theorem Inv.row_lt {s : St} (h : Inv s) {m : MobileSession} (hm : m ∈ s.db.mobileSessions) : m.id < s.fresh :=
  h.issued_id _ (h.hash_issued m hm)

theorem Inv.refreshed_ne {s : St} (h : Inv s) {r : Secret × MobileTokenResponse} (hr : r ∈ s.refreshed) {n : ℕ}
    (hn : s.fresh ≤ n) : .drawn n ≠ r.1 := by
  intro heq
  exact h.not_issued hn (heq ▸ h.refreshed_issued r hr)

theorem Halfway.refresh_issued {s : St} {access : AccessSession} {response : MobileTokenResponse}
    (h : Halfway s access response) : (response.refreshToken, response.mobileSessionId) ∈ s.issued :=
  h.secrets _ (by simp [MobileTokenResponse.secrets])

/-- new secrets keep the issued ones apart -/
theorem Inv.issue_once {s : St} (h : Inv s) {id : ℕ} {ns : List ℕ} (hns : ns.Nodup) (hfresh : ∀ n ∈ ns, s.fresh ≤ n) :
    ((ns.map (fun n => (Secret.drawn n, id)) ++ s.issued).map Prod.fst).Nodup := by
  rw [List.map_append, List.map_map]
  refine List.nodup_append.2 ⟨hns.map fun a b hab => Secret.drawn.inj hab, h.issued_once, ?_⟩
  intro a ha b hb hab
  obtain ⟨n, hn, rfl⟩ := List.mem_map.1 ha
  obtain ⟨p, hp, rfl⟩ := List.mem_map.1 hb
  obtain ⟨secret, id'⟩ := p
  cases hab
  exact h.not_issued (hfresh n hn) hp

theorem update_halfway {tasks : ℕ → Task} {t t' : ℕ} {access access' : AccessSession}
    {response response' : MobileTokenResponse}
    (h : Function.update tasks t (.halfway access response) t' = .halfway access' response') :
    t' = t ∧ access' = access ∧ response' = response ∨ t' ≠ t ∧ tasks t' = .halfway access' response' := by
  by_cases ht : t' = t
  · subst ht
    rw [Function.update_self] at h
    cases h
    exact Or.inl ⟨rfl, rfl, rfl⟩
  · rw [Function.update_of_ne ht] at h
    exact Or.inr ⟨ht, h⟩

theorem busy_ne {tasks : ℕ → Task} {t t' : ℕ} {task : Task} (h : Function.update tasks t .idle t' = task)
    (hbusy : task ≠ .idle) : t' ≠ t ∧ tasks t' = task := by
  by_cases ht : t' = t
  · subst ht
    rw [Function.update_self] at h
    exact absurd h.symm hbusy
  · rw [Function.update_of_ne ht] at h
    exact ⟨ht, h⟩

theorem knows_mono {s : St} {secret : Secret} {revealed : List Secret} (hsub : s.revealed ⊆ revealed)
    (h : s.knows secret = true) : ({ s with revealed := revealed } : St).knows secret = true := by
  cases secret with
  | text a => rfl
  | drawn n =>
    simp only [St.knows, List.contains_iff_mem] at h ⊢
    exact hsub h

/-! ## Moves -/

section Moves

variable {config : MobileConfig} {s : St}

theorem Inv.shrink (h : Inv s) {db : Db} {tasks : ℕ → Task} (hdb : Shrinks s.db db)
    (htasks : ∀ t, tasks t = s.tasks t ∨ s.Settled (tasks t)) : Inv { s with db := db, tasks := tasks } := by
  have hhalf : ∀ t access response, tasks t = .halfway access response → s.tasks t = .halfway access response := by
    intro t access response ht
    rcases htasks t with heq | hsettled
    · exact heq ▸ ht
    · rw [ht] at hsettled
      exact hsettled.elim
  refine { h with
    refs := hdb.refs h.refs, hash_issued := ?_, refreshed_gone := ?_, one_session := ?_, last_session := ?_
    halfway := ?_, halfway_inj := ?_, verified := ?_ }
  · intro m hm
    obtain ⟨m', hm', hid, hhash⟩ := hdb.mobile m hm
    exact hid ▸ hhash ▸ h.hash_issued m' hm'
  · intro r hr m hm
    obtain ⟨m', hm', -, hhash⟩ := hdb.mobile m hm
    exact hhash ▸ h.refreshed_gone r hr m' hm'
  · intro row hrow row' hrow' id hid hid'
    rcases hdb.session row hrow with hold | hnone
    · rcases hdb.session row' hrow' with hold' | hnone'
      · exact h.one_session row hold row' hold' id hid hid'
      · cases hnone'.symm.trans hid'
    · cases hnone.symm.trans hid
  · intro row hrow id hid r hr
    rcases hdb.session row hrow with hold | hnone
    · exact h.last_session row hold id hid r hr
    · cases hnone.symm.trans hid
  · intro t access response ht
    have hw := h.halfway t access response (hhalf t access response ht)
    refine { hw with secret := ?_, alone := ?_ }
    · intro m hm hid
      obtain ⟨m', hm', hid', hhash⟩ := hdb.mobile m hm
      exact hhash ▸ hw.secret m' hm' (hid'.trans hid)
    · intro row hrow hlink
      rcases hdb.session row hrow with hold | hnone
      · exact hw.alone row hold hlink
      · cases hnone.symm.trans hlink
  · intro t t' access access' response response' ht ht'
    exact h.halfway_inj t t' access access' response response' (hhalf _ _ _ ht) (hhalf _ _ _ ht')
  · intro t old req ht
    rcases htasks t with heq | hsettled
    · exact h.verified t old req (heq ▸ ht)
    · have hverified : s.Settled (.verified old req) := ht ▸ hsettled
      exact hverified

theorem Inv.begin (h : Inv s) {t installationId salt : ℕ} {now : ℤ} {user : User} {rows : Table MobileSession.id}
    (hrows : s.db.mobileSessions.insert (loginMobileSession config user installationId s.fresh salt now) = some rows) :
    Inv { s with
      db := { s.db with mobileSessions := rows }
      tasks := Function.update s.tasks t
        (.halfway (loginAccessSession config user s.fresh now) (loginResponse config user s.fresh))
      fresh := s.fresh + 5
      issued := (loginResponse config user s.fresh).secrets.map (fun secret => (secret, s.fresh + 3)) ++ s.issued } := by
  have hmem : ∀ m, m ∈ rows ↔ m ∈ s.db.mobileSessions ∨ m = loginMobileSession config user installationId s.fresh salt now :=
    fun m => Table.mem_insert hrows
  have hissued : (loginResponse config user s.fresh).secrets.map (fun secret => (secret, s.fresh + 3)) =
      [s.fresh, s.fresh + 1, s.fresh + 2].map fun n => (Secret.drawn n, s.fresh + 3) := rfl
  refine ⟨?_, ?_, ?_, ?_, ?_, ?_, ?_, h.refreshed_once, ?_, h.one_session, h.last_session, ?_, ?_, ?_⟩
  · intro row hrow id hid
    obtain ⟨m, hm, rfl⟩ := h.refs row hrow id hid
    exact ⟨m, (hmem m).2 (Or.inl hm), rfl⟩
  · intro p hp
    rw [hissued] at hp
    rcases List.mem_append.1 hp with hnew | hold
    · obtain ⟨n, hn, rfl⟩ := List.mem_map.1 hnew
      refine ⟨n, rfl, ?_⟩
      show n < s.fresh + 5
      simp only [List.mem_cons, List.not_mem_nil, or_false] at hn
      omega
    · obtain ⟨n, hn, hlt⟩ := h.issued_drawn p hold
      exact ⟨n, hn, Nat.lt_add_right 5 hlt⟩
  · intro p hp
    rcases List.mem_append.1 hp with hnew | hold
    · obtain ⟨secret, -, rfl⟩ := List.mem_map.1 hnew
      show s.fresh + 3 < s.fresh + 5
      omega
    · exact Nat.lt_add_right 5 (h.issued_id p hold)
  · rw [hissued]
    refine h.issue_once (by simp) fun n hn => ?_
    simp only [List.mem_cons, List.not_mem_nil, or_false] at hn
    omega
  · intro n hn
    exact Nat.lt_add_right 5 (h.revealed_drawn n hn)
  · intro m hm
    rcases (hmem m).1 hm with hold | rfl
    · exact List.mem_append_right _ (h.hash_issued m hold)
    · exact List.mem_append_left _ (by simp [loginMobileSession, loginResponse, MobileTokenResponse.secrets])
  · intro r hr
    exact List.mem_append_right _ (h.refreshed_issued r hr)
  · intro r hr m hm
    rcases (hmem m).1 hm with hold | rfl
    · exact h.refreshed_gone r hr m hold
    · exact h.refreshed_ne hr (Nat.le_succ _)
  · intro t' access response ht
    rcases update_halfway ht with ⟨-, rfl, rfl⟩ | ⟨hne, hold⟩
    · -- the new login: its id and its secrets are above everything
      refine ⟨rfl, fun secret hsecret => List.mem_append_left _ (List.mem_map.2 ⟨secret, hsecret, rfl⟩), ?_, ?_, ?_, ?_⟩
      · intro m hm hid
        rcases (hmem m).1 hm with hold | rfl
        · have hlt := h.row_lt hold
          change m.id = s.fresh + 3 at hid
          omega
        · rfl
      · intro hrevealed
        exact absurd (h.revealed_drawn _ hrevealed) (by omega)
      · intro row hrow hid
        obtain ⟨m, hm, hmid⟩ := h.refs row hrow _ hid
        have hlt := h.row_lt hm
        change m.id = s.fresh + 3 at hmid
        omega
      · intro r hr hid
        have hlt := h.issued_id _ (h.refreshed_issued r hr)
        change r.2.mobileSessionId = s.fresh + 3 at hid
        omega
    · have hw := h.halfway t' access response hold
      refine ⟨hw.link, fun secret hsecret => List.mem_append_right _ (hw.secrets secret hsecret), ?_, hw.hidden, hw.alone,
        hw.unrefreshed⟩
      intro m hm hid
      rcases (hmem m).1 hm with hm | rfl
      · exact hw.secret m hm hid
      · have hlt := h.issued_id _ hw.refresh_issued
        change s.fresh + 3 = response.mobileSessionId at hid
        simp only at hlt
        omega
  · intro t₁ t₂ access₁ access₂ response₁ response₂ ht₁ ht₂ hid
    rcases update_halfway ht₁ with ⟨rfl, -, rfl⟩ | ⟨-, hold₁⟩
    · rcases update_halfway ht₂ with ⟨rfl, -, -⟩ | ⟨-, hold₂⟩
      · rfl
      · have hlt := h.issued_id _ (h.halfway _ _ _ hold₂).refresh_issued
        change s.fresh + 3 = response₂.mobileSessionId at hid
        simp only at hlt
        omega
    · rcases update_halfway ht₂ with ⟨rfl, -, rfl⟩ | ⟨-, hold₂⟩
      · have hlt := h.issued_id _ (h.halfway _ _ _ hold₁).refresh_issued
        change response₁.mobileSessionId = s.fresh + 3 at hid
        simp only at hlt
        omega
      · exact h.halfway_inj _ _ _ _ _ _ hold₁ hold₂ hid
  · intro t' old req ht
    by_cases heq : t' = t
    · subst heq
      cases (Function.update_self ..).symm.trans ht
    · exact h.verified t' old req ((Function.update_of_ne heq ..).symm.trans ht)

theorem Inv.finish (h : Inv s) {t : ℕ} {access : AccessSession} {response : MobileTokenResponse}
    {rows : Table AccessSession.id} (ht : s.tasks t = .halfway access response)
    (hrefs : ∀ id, access.mobileSessionId = some id → ∃ m ∈ s.db.mobileSessions, m.id = id)
    (hrows : s.db.sessions.insert access = some rows) :
    Inv { s with
      db := { s.db with sessions := rows }
      tasks := Function.update s.tasks t .idle
      revealed := response.secrets ++ s.revealed } := by
  have hmem : ∀ row, row ∈ rows ↔ row ∈ s.db.sessions ∨ row = access := fun row => Table.mem_insert hrows
  have hw := h.halfway t access response ht
  have hlink : ∀ id, access.mobileSessionId = some id → id = response.mobileSessionId :=
    fun id hid => Option.some.inj (hid.symm.trans hw.link)
  refine ⟨?_, h.issued_drawn, h.issued_id, h.issued_once, ?_, h.hash_issued, h.refreshed_issued, h.refreshed_once,
    h.refreshed_gone, ?_, ?_, ?_, ?_, ?_⟩
  · intro row hrow id hid
    rcases (hmem row).1 hrow with hold | rfl
    · exact h.refs row hold id hid
    · exact hrefs id hid
  · intro n hn
    rcases List.mem_append.1 hn with hnew | hold
    · exact h.issued_lt (hw.secrets _ hnew)
    · exact h.revealed_drawn n hold
  · intro row hrow row' hrow' id hid hid'
    rcases (hmem row).1 hrow with hold | rfl
    · rcases (hmem row').1 hrow' with hold' | rfl
      · exact h.one_session row hold row' hold' id hid hid'
      · exact absurd (hlink id hid' ▸ hid) (hw.alone row hold)
    · rcases (hmem row').1 hrow' with hold' | rfl
      · exact absurd (hlink id hid ▸ hid') (hw.alone row' hold')
      · rfl
  · intro row hrow id hid r hr
    rcases (hmem row).1 hrow with hold | rfl
    · exact h.last_session row hold id hid r hr
    · have hrid := List.find?_some hr
      rw [beq_iff_eq] at hrid
      exact absurd (hrid.trans (hlink id hid)) (hw.unrefreshed r (List.mem_of_find?_eq_some hr))
  · intro t' access' response' ht'
    obtain ⟨hne, hold⟩ := busy_ne ht' nofun
    have hw' := h.halfway t' access' response' hold
    have hapart : response.mobileSessionId ≠ response'.mobileSessionId := fun heq =>
      hne (h.halfway_inj t' t access' access response' response hold ht heq.symm)
    refine { hw' with hidden := ?_, alone := ?_ }
    · intro hrevealed
      rcases List.mem_append.1 hrevealed with hnew | hold
      · exact hapart (h.issued_eq (hw.secrets _ hnew) hw'.refresh_issued)
      · exact hw'.hidden hold
    · intro row hrow hid
      rcases (hmem row).1 hrow with hold | rfl
      · exact hw'.alone row hold hid
      · exact hapart (hlink _ hid).symm
  · intro t₁ t₂ access₁ access₂ response₁ response₂ ht₁ ht₂ hid
    exact h.halfway_inj _ _ _ _ _ _ (busy_ne ht₁ nofun).2 (busy_ne ht₂ nofun).2 hid
  · intro t' old req ht'
    obtain ⟨hhash, hknown⟩ := h.verified t' old req (busy_ne ht' nofun).2
    exact ⟨hhash, knows_mono (List.subset_append_right _ _) hknown⟩

theorem Inv.web (h : Inv s) {row : AccessSession} {rows : Table AccessSession.id} (hrow : row.mobileSessionId = none)
    (hrows : s.db.sessions.insert row = some rows) :
    Inv { s with
      db := { s.db with sessions := rows }
      fresh := s.fresh + 2
      revealed := .drawn (s.fresh + 1) :: s.revealed } := by
  have hold : ∀ row' ∈ rows, ∀ id, row'.mobileSessionId = some id → row' ∈ s.db.sessions := by
    intro row' hrow' id hid
    rcases (Table.mem_insert hrows).1 hrow' with hold | rfl
    · exact hold
    · cases hrow.symm.trans hid
  refine ⟨?_, ?_, ?_, h.issued_once, ?_, h.hash_issued, h.refreshed_issued, h.refreshed_once, h.refreshed_gone, ?_, ?_, ?_,
    h.halfway_inj, ?_⟩
  · intro row' hrow' id hid
    exact h.refs row' (hold row' hrow' id hid) id hid
  · intro p hp
    obtain ⟨n, hn, hlt⟩ := h.issued_drawn p hp
    exact ⟨n, hn, Nat.lt_add_right 2 hlt⟩
  · intro p hp
    exact Nat.lt_add_right 2 (h.issued_id p hp)
  · intro n hn
    rcases List.mem_cons.1 hn with heq | hn
    · cases heq
      show s.fresh + 1 < s.fresh + 2
      omega
    · exact Nat.lt_add_right 2 (h.revealed_drawn n hn)
  · intro row₁ hrow₁ row₂ hrow₂ id hid₁ hid₂
    exact h.one_session row₁ (hold row₁ hrow₁ id hid₁) row₂ (hold row₂ hrow₂ id hid₂) id hid₁ hid₂
  · intro row' hrow' id hid
    exact h.last_session row' (hold row' hrow' id hid) id hid
  · intro t access response ht
    have hw := h.halfway t access response ht
    refine { hw with hidden := ?_, alone := ?_ }
    · intro hrevealed
      rcases List.mem_cons.1 hrevealed with heq | hrevealed
      · exact h.not_issued (Nat.le_succ _) (heq ▸ hw.refresh_issued)
      · exact hw.hidden hrevealed
    · intro row' hrow' hid
      exact hw.alone row' (hold row' hrow' _ hid) hid
  · intro t old req ht
    obtain ⟨hhash, hknown⟩ := h.verified t old req ht
    exact ⟨hhash, knows_mono (List.subset_cons_self _ _) hknown⟩

theorem Inv.rotate (h : Inv s) {t : ℕ} {old : MobileSession} {req : RefreshRequest} {db : Db}
    {response : MobileTokenResponse} (ht : s.tasks t = .verified old req) (hrot : Rotated s.db db old s.fresh response) :
    Inv { s with
      db := db
      tasks := Function.update s.tasks t .idle
      fresh := s.fresh + 3
      revealed := [response.accessToken, response.refreshToken] ++ s.revealed
      issued := [(response.accessToken, response.mobileSessionId), (response.refreshToken, response.mobileSessionId)] ++
        s.issued
      refreshed := (req.token, response) :: s.refreshed } := by
  obtain ⟨htoken, hknown⟩ := h.verified t old req ht
  obtain ⟨m₀, hm₀, hid₀, hhash₀⟩ := hrot.consumed
  have hsecret₀ : m₀.refreshTokenHash.secret = req.token := hhash₀ ▸ htoken
  have howner : (req.token, old.id) ∈ s.issued := hsecret₀ ▸ hid₀ ▸ h.hash_issued m₀ hm₀
  obtain ⟨issued, hissuedId, hissuedToken, hsessions⟩ := hrot.session
  have hissued : [(response.accessToken, response.mobileSessionId), (response.refreshToken, response.mobileSessionId)] =
      [s.fresh, s.fresh + 1].map fun n => (Secret.drawn n, old.id) := by
    rw [hrot.access, hrot.refresh, hrot.sessionId]
    rfl
  refine ⟨?_, ?_, ?_, ?_, ?_, ?_, ?_, ?_, ?_, ?_, ?_, ?_, ?_, ?_⟩
  · intro row hrow id hid
    rcases (hsessions row).1 hrow with ⟨hold, hother⟩ | rfl
    · obtain ⟨m, hm, rfl⟩ := h.refs row hold id hid
      exact ⟨m, hrot.kept m hm fun heq => hother (heq ▸ hid), rfl⟩
    · cases hissuedId.symm.trans hid
      exact hrot.renewed
  · intro p hp
    rw [hissued] at hp
    rcases List.mem_append.1 hp with hnew | hold
    · obtain ⟨n, hn, rfl⟩ := List.mem_map.1 hnew
      refine ⟨n, rfl, ?_⟩
      show n < s.fresh + 3
      simp only [List.mem_cons, List.not_mem_nil, or_false] at hn
      omega
    · obtain ⟨n, hn, hlt⟩ := h.issued_drawn p hold
      exact ⟨n, hn, Nat.lt_add_right 3 hlt⟩
  · intro p hp
    rw [hissued] at hp
    rcases List.mem_append.1 hp with hnew | hold
    · obtain ⟨n, -, rfl⟩ := List.mem_map.1 hnew
      exact Nat.lt_add_right 3 (h.issued_id (req.token, old.id) howner)
    · exact Nat.lt_add_right 3 (h.issued_id p hold)
  · rw [hissued]
    refine h.issue_once (by simp) fun n hn => ?_
    simp only [List.mem_cons, List.not_mem_nil, or_false] at hn
    omega
  · intro n hn
    rw [hrot.access, hrot.refresh] at hn
    show n < s.fresh + 3
    rcases List.mem_append.1 hn with hnew | hold
    · simp only [List.mem_cons, List.not_mem_nil, or_false, Secret.drawn.injEq] at hnew
      omega
    · exact Nat.lt_add_right 3 (h.revealed_drawn n hold)
  · intro m hm
    rcases hrot.mobile m hm with ⟨hid, hsecret⟩ | ⟨-, hold⟩
    · rw [hissued, hid, hsecret]
      exact List.mem_append_left _ (by simp)
    · exact List.mem_append_right _ (h.hash_issued m hold)
  · intro r hr
    rcases List.mem_cons.1 hr with rfl | hr
    · exact List.mem_append_right _ (hrot.sessionId ▸ howner)
    · exact List.mem_append_right _ (h.refreshed_issued r hr)
  · refine List.nodup_cons.2 ⟨fun hmem => ?_, h.refreshed_once⟩
    obtain ⟨r, hr, heq⟩ := List.mem_map.1 hmem
    exact h.refreshed_gone r hr m₀ hm₀ (hsecret₀.trans heq.symm)
  · intro r hr m hm heq
    rcases hrot.mobile m hm with ⟨-, hsecret⟩ | ⟨hid, hold⟩
    · rcases List.mem_cons.1 hr with rfl | hr
      · have htoken' : .drawn (s.fresh + 1) = req.token := hsecret.symm.trans heq
        exact h.not_issued (Nat.le_succ _) (htoken' ▸ howner)
      · exact h.refreshed_ne hr (Nat.le_succ _) (hsecret.symm.trans heq)
    · rcases List.mem_cons.1 hr with rfl | hr
      · have hissued' := h.hash_issued m hold
        rw [heq] at hissued'
        exact hid (h.issued_eq hissued' howner)
      · exact h.refreshed_gone r hr m hold heq
  · intro row hrow row' hrow' id hid hid'
    rcases (hsessions row).1 hrow with ⟨hold, hother⟩ | rfl
    · rcases (hsessions row').1 hrow' with ⟨hold', -⟩ | rfl
      · exact h.one_session row hold row' hold' id hid hid'
      · exact absurd (hid.trans (hid'.symm.trans hissuedId)) hother
    · rcases (hsessions row').1 hrow' with ⟨-, hother'⟩ | rfl
      · exact absurd (hid'.trans (hid.symm.trans hissuedId)) hother'
      · rfl
  · intro row hrow id hid r hr
    by_cases hsame : response.mobileSessionId = id
    · have hlast : some (req.token, response) = some r := (List.find?_cons_of_pos (by simp [hsame])).symm.trans hr
      cases hlast
      rcases (hsessions row).1 hrow with ⟨-, hother⟩ | rfl
      · exact absurd (hid.trans (congrArg some (hsame.symm.trans hrot.sessionId))) hother
      · exact hissuedToken
    · have hlast : s.lastRefresh id = some r := (List.find?_cons_of_neg (by simp [hsame])).symm.trans hr
      rcases (hsessions row).1 hrow with ⟨hold, -⟩ | rfl
      · exact h.last_session row hold id hid r hlast
      · exact absurd (hrot.sessionId.trans (Option.some.inj (hissuedId.symm.trans hid))) hsame
  · intro t' access' response' ht'
    obtain ⟨-, hold⟩ := busy_ne ht' nofun
    have hw := h.halfway t' access' response' hold
    -- the row that was rotated is of a finished login, as its secret was presented
    have hapart : old.id ≠ response'.mobileSessionId := by
      intro heq
      have htaken : req.token = response'.refreshToken := hsecret₀.symm.trans (hw.secret m₀ hm₀ (hid₀.trans heq))
      obtain ⟨n, hn, -⟩ := h.issued_drawn _ howner
      simp only at hn
      rw [hn] at hknown htaken
      simp only [St.knows, List.contains_iff_mem] at hknown
      exact hw.hidden (htaken ▸ hknown)
    refine ⟨hw.link, fun secret hsecret => List.mem_append_right _ (hw.secrets secret hsecret), ?_, ?_, ?_, ?_⟩
    · intro m hm hid
      rcases hrot.mobile m hm with ⟨hid', -⟩ | ⟨-, hm⟩
      · exact absurd (hid'.symm.trans hid) hapart
      · exact hw.secret m hm hid
    · intro hrevealed
      have hissued' := hw.refresh_issued
      rw [hrot.access, hrot.refresh] at hrevealed
      rcases List.mem_append.1 hrevealed with hnew | hrevealed
      · simp only [List.mem_cons, List.not_mem_nil, or_false] at hnew
        rcases hnew with heq | heq
        · exact h.not_issued le_rfl (heq ▸ hissued')
        · exact h.not_issued (Nat.le_succ _) (heq ▸ hissued')
      · exact hw.hidden hrevealed
    · intro row hrow hid
      rcases (hsessions row).1 hrow with ⟨hrow, -⟩ | rfl
      · exact hw.alone row hrow hid
      · exact hapart (Option.some.inj (hissuedId.symm.trans hid))
    · intro r hr
      rcases List.mem_cons.1 hr with rfl | hr
      · exact fun heq => hapart (hrot.sessionId.symm.trans heq)
      · exact hw.unrefreshed r hr
  · intro t₁ t₂ access₁ access₂ response₁ response₂ ht₁ ht₂ hid
    exact h.halfway_inj _ _ _ _ _ _ (busy_ne ht₁ nofun).2 (busy_ne ht₂ nofun).2 hid
  · intro t' old' req' ht'
    obtain ⟨hhash, hknown'⟩ := h.verified t' old' req' (busy_ne ht' nofun).2
    exact ⟨hhash, knows_mono (List.subset_append_right _ _) hknown'⟩

theorem Inv.move (h : Inv s) {s' : St} (hmove : Move config s s') : Inv s' := by
  cases hmove with
  | shrink hdb htasks => exact h.shrink hdb htasks
  | begin hrows => exact h.begin hrows
  | finish ht hrefs hrows => exact h.finish ht hrefs hrows
  | rotate ht hrot => exact h.rotate ht hrot
  | web hrow hrows => exact h.web hrow hrows

/-! ## A deleted session -/

/-- the id was drawn and has no row -/
def St.Gone (s : St) (id : ℕ) : Prop := id < s.fresh ∧ ∀ m ∈ s.db.mobileSessions, m.id ≠ id

theorem Inv.gone_sessions (h : Inv s) {id : ℕ} (hgone : s.Gone id) : s.db.sessionsOf id = [] := by
  refine List.eq_nil_iff_forall_not_mem.2 fun row hrow => ?_
  obtain ⟨hrow, hid⟩ := Db.mem_sessionsOf.1 hrow
  obtain ⟨m, hm, hmid⟩ := h.refs row hrow id hid
  exact hgone.2 m hm hmid

/-- a deleted session stays deleted, and a refresh is of another one -/
theorem Move.gone {s' : St} (hmove : Move config s s') {id : ℕ} (hgone : s.Gone id) :
    s'.Gone id ∧ ∀ r ∈ s'.refreshed, r ∈ s.refreshed ∨ r.2.mobileSessionId ≠ id := by
  obtain ⟨hlt, hrow⟩ := hgone
  cases hmove with
  | shrink hdb htasks =>
    refine ⟨⟨hlt, fun m hm => ?_⟩, fun r hr => Or.inl hr⟩
    obtain ⟨m', hm', hid, -⟩ := hdb.mobile m hm
    exact hid ▸ hrow m' hm'
  | begin hrows =>
    refine ⟨⟨Nat.lt_add_right 5 hlt, fun m hm => ?_⟩, fun r hr => Or.inl hr⟩
    rcases (Table.mem_insert hrows).1 hm with hm | rfl
    · exact hrow m hm
    · show s.fresh + 3 ≠ id
      omega
  | finish ht hrefs hrows => exact ⟨⟨hlt, hrow⟩, fun r hr => Or.inl hr⟩
  | rotate ht hrot =>
    obtain ⟨m₀, hm₀, hid₀, -⟩ := hrot.consumed
    have hne : _ ≠ id := hid₀ ▸ hrow m₀ hm₀
    refine ⟨⟨Nat.lt_add_right 3 hlt, fun m hm => ?_⟩, fun r hr => ?_⟩
    · rcases hrot.mobile m hm with ⟨hid, -⟩ | ⟨-, hm⟩
      · exact hid ▸ hne
      · exact hrow m hm
    · rcases List.mem_cons.1 hr with rfl | hr
      · exact Or.inr (hrot.sessionId ▸ hne)
      · exact Or.inl hr
  | web hnone hrows => exact ⟨⟨Nat.lt_add_right 2 hlt, hrow⟩, fun r hr => Or.inl hr⟩

theorem Move.fresh_le {s' : St} (hmove : Move config s s') : s.fresh ≤ s'.fresh := by
  cases hmove with
  | shrink hdb htasks => exact le_rfl
  | begin hrows => exact Nat.le_add_right _ 5
  | finish ht hrefs hrows => exact le_rfl
  | rotate ht hrot => exact Nat.le_add_right _ 3
  | web hnone hrows => exact Nat.le_add_right _ 2

/-- a move that adds a refresh leaves the access session it issued, and no other -/
theorem Move.refreshed {s' : St} (hmove : Move config s s') {r : Secret × MobileTokenResponse}
    (hr : s'.refreshed = r :: s.refreshed) :
    ∃ row, s'.db.sessionsOf r.2.mobileSessionId = [row] ∧ row.token = r.2.accessToken := by
  cases hmove with
  | rotate ht hrot =>
    cases hr
    obtain ⟨issued, hid, htoken, hsessions⟩ := hrot.session
    refine ⟨issued, ?_, htoken⟩
    refine Db.sessionsOf_singleton fun row => ?_
    rw [Db.mem_sessionsOf, hsessions row, hrot.sessionId]
    constructor
    · rintro ⟨⟨-, hother⟩ | rfl, hrow⟩
      · exact absurd hrow hother
      · rfl
    · rintro rfl
      exact ⟨Or.inr rfl, hid⟩
  | shrink hdb htasks => exact absurd hr.symm (List.cons_ne_self _ _)
  | begin hrows => exact absurd hr.symm (List.cons_ne_self _ _)
  | finish ht hrefs hrows => exact absurd hr.symm (List.cons_ne_self _ _)
  | web hnone hrows => exact absurd hr.symm (List.cons_ne_self _ _)

end Moves

/-! ## Runs -/

section Runs

variable {C : Crates} {config : MobileConfig}

theorem run_inv (ops : List Op) {s : St} (h : Inv s) : Inv (run C config s ops) := by
  induction ops generalizing s with
  | nil => exact h
  | cons op ops ih => exact ih (h.move (step_move op))

theorem run_fresh (ops : List Op) (s : St) : s.fresh ≤ (run C config s ops).fresh := by
  induction ops generalizing s with
  | nil => exact le_rfl
  | cons op ops ih => exact (step_move op).fresh_le.trans (ih (step C config s op))

theorem run_gone (ops : List Op) {s : St} {id : ℕ} (hgone : s.Gone id) :
    (run C config s ops).Gone id ∧
      ∀ r ∈ (run C config s ops).refreshed, r ∈ s.refreshed ∨ r.2.mobileSessionId ≠ id := by
  induction ops generalizing s with
  | nil => exact ⟨hgone, fun r hr => Or.inl hr⟩
  | cons op ops ih =>
    obtain ⟨hgone', hstep⟩ := (@step_move C config s op).gone hgone
    obtain ⟨hlast, hrest⟩ := ih hgone'
    refine ⟨hlast, fun r hr => ?_⟩
    rcases hrest r hr with hr | hne
    · exact hstep r hr
    · exact Or.inr hne

/-- **Refresh secrets are single use and revocation is final.** In every run of the machine: no secret is consumed by two
refreshes; a refresh leaves exactly one access session of its mobile session, the one it issued, and until the next
refresh of that session no other; and once a mobile session that had a row has none, it has no access session and no
refresh succeeds for it or with a secret issued for it. -/
theorem refresh_single_use (ops : List Op) :
    let s := run C config .init ops
    (s.refreshed.map Prod.fst).Nodup ∧
    (∀ op r, (step C config s op).refreshed = r :: s.refreshed →
      ∃ row, (step C config s op).db.sessionsOf r.2.mobileSessionId = [row] ∧ row.token = r.2.accessToken) ∧
    (∀ id r, s.lastRefresh id = some r → ∀ row ∈ s.db.sessionsOf id,
      s.db.sessionsOf id = [row] ∧ row.token = r.2.accessToken) ∧
    (∀ id, (s.db.mobileSessions.get id).isSome → ∀ mid, (run C config s mid).db.mobileSessions.get id = none →
      ∀ post, let last := run C config (run C config s mid) post
        last.db.sessionsOf id = [] ∧
        ∀ r ∈ last.refreshed, r ∈ (run C config s mid).refreshed ∨ r.2.mobileSessionId ≠ id ∧ (r.1, id) ∉ last.issued) := by
  intro s
  have h : Inv s := run_inv ops inv_init
  refine ⟨h.refreshed_once, fun op r hr => (step_move op).refreshed hr, ?_, ?_⟩
  · intro id r hr row hrow
    have hmem := Db.mem_sessionsOf.1 hrow
    refine ⟨?_, h.last_session row hmem.1 id hmem.2 r hr⟩
    refine Db.sessionsOf_singleton fun row' => ?_
    constructor
    · intro hrow'
      have hmem' := Db.mem_sessionsOf.1 hrow'
      exact h.one_session row' hmem'.1 row hmem.1 id hmem'.2 hmem.2
    · rintro rfl
      exact hrow
  · intro id hsome mid hnone post last
    obtain ⟨m, hget⟩ := Option.isSome_iff_exists.1 hsome
    obtain ⟨hm, rfl⟩ := Table.get_eq_some.1 hget
    have hgone : (run C config s mid).Gone m.id :=
      ⟨(h.row_lt hm).trans_le (run_fresh mid s), Table.get_eq_none.1 hnone⟩
    obtain ⟨hlast, hrefreshed⟩ := run_gone post hgone
    have hinv : Inv last := run_inv post (run_inv mid h)
    refine ⟨hinv.gone_sessions hlast, fun r hr => ?_⟩
    rcases hrefreshed r hr with hr' | hne
    · exact Or.inl hr'
    · exact Or.inr ⟨hne, fun hissued => hne (hinv.issued_eq (hinv.refreshed_issued r hr) hissued)⟩

/-- of two refreshes that verified one secret the first succeeds, and a refresh that a logout overtakes fails -/
example : (run ⟨fun _ _ => true, fun _ _ => true, fun _ => true⟩ ⟨100, 10⟩ .init
    [.users ⟨[⟨1, "ada", "hash", none, "member", false, none⟩], by decide⟩, .login 0 "ada" "password" none,
      .insertMobileSession 0 7 0 1, .insertSession 0, .refresh 0 ⟨.drawn 1, 7, none⟩ 2, .refresh 1 ⟨.drawn 1, 7, none⟩ 2,
      .rotate 0 1 3 true, .rotate 1 1 3 true, .refresh 2 ⟨.drawn 6, 7, none⟩ 4, .logout 3 true, .rotate 2 1 5 true]).refreshed.map
    Prod.fst = [.drawn 1] := by decide

end Runs

end ServerBee.Mobile
