/-
The contract of each operation, over a committed state that satisfies the invariant.

Every contract has the same error side: `Failed`. The success side says which moves were committed (`Commits`, or the
consuming act of a claim), and in which order the commit and the connection removals became visible. `exec_contract`
puts the eight together.
-/
import ServerBee.Authority.Specs

namespace ServerBee.Authority

open ServerBee.Lib ServerBee.Lib.Txn

section Contracts

variable {A : Argon2} {env : Env} {db : Db}

/-- the transaction committed once, and removed no connection -/
def Quietly (db : Db) (tokens : ℕ → Option String) (db' : Db) (trace : List (Visible Db Effect)) : Prop :=
  Commits db db' tokens ∧ trace = [.commit db']

/-! ### Offers -/

theorem onboard_sat (input : OnboardServer) (inv : Inv db) :
    Sat (onboard A input) env ⟨db, db, 0, []⟩ (fun _ y => Quietly db (tokenOf db) y.committed y.trace)
      fun _ c t => Failed env db c t := by
  refine Sat.bind (Sat.begin ?_ (.quiet []))
  refine Sat.bind (newId_sat ?_)
  refine Sat.bind (Sat.now ?_)
  refine Sat.bind (statement_sat (fun a v hv => ?_) fun _ => .quiet [])
  simp only [Db.insertServer] at hv
  split_ifs at hv
  cases hv
  have hrow : Commits db { db with
      servers := db.servers ++ [⟨db.nextId, none, none, input.name, input.capabilities, none, env.clock 0⟩]
      nextId := db.nextId + 1 } (tokenOf db) := Commits.onboard rfl (Nat.lt_succ_self _) rfl
  have inv' := Moves.inv inv hrow.moves
  refine Sat.bind (mintLogged_sat A inv' (List.mem_append_right _ (List.mem_singleton.2 rfl)) id (fun _ => rfl)
    (Db.setServer_id _ _).symm rfl rfl rfl (fun issued a hv _ hset hcl => Sat.pure ?_) fun _ => .quiet [])
  refine Sat.bind (commit_sat ?_ fun _ => .quiet [])
  refine Sat.pure ⟨?_, rfl⟩
  have hcommits := Act.commits_keep inv' hv hset (by simp [hcl])
  rw [hrow.tokens] at hcommits
  exact hrow.trans hcommits

theorem issueOfferForUnclaimed_sat (input : IssueOfferForUnclaimed) (inv : Inv db) :
    Sat (issueOfferForUnclaimed A input) env ⟨db, db, 0, []⟩
      (fun _ y => Quietly db (tokenOf db) y.committed y.trace) fun _ c t => Failed env db c t := by
  refine Sat.bind (beginWrite_sat ?_ fun _ => .quiet [])
  refine Sat.bind (select_sat ?_ fun _ => .quiet [])
  refine Sat.bind (Sat.orThrow (fun server hs => ?_) (.quiet []))
  have hmem := (findServer_mem hs).1
  split_ifs with hst
  · exact Sat.throw (.quiet [])
  refine Sat.bind (expireElapsedOutstanding_sat inv hmem (fun v r he => ?_) fun _ => .quiet [])
  refine Sat.bind (Sat.now ?_)
  refine Sat.bind (select_sat ?_ fun _ => .quiet [])
  split
  · exact Sat.throw (.quiet [])
  have hexp := he.commits inv
  have inv' := Moves.inv inv hexp.moves
  have hun : AuthorityStatus.unclaimed = authorityStatus server := by
    cases hc : authorityStatus server with
    | claimed => exact absurd hc hst
    | unclaimed => rfl
  refine mintLogged_sat A inv' (he.servers ▸ hmem) id (fun _ => rfl) (Db.setServer_id _ _).symm rfl hun hun
    (fun issued a hv ha hset hcl => ?_) fun _ => .quiet []
  refine Sat.bind (commit_sat ?_ fun _ => .quiet [])
  refine Sat.pure ⟨?_, rfl⟩
  have hcommits := Act.commits_keep inv' hv hset (by simp [hcl])
  rw [hexp.tokens] at hcommits
  exact hexp.trans hcommits

theorem replaceOffer_sat (input : ReplaceOffer) (inv : Inv db) :
    Sat (replaceOffer A input) env ⟨db, db, 0, []⟩ (fun _ y => Quietly db (tokenOf db) y.committed y.trace)
      fun _ c t => Failed env db c t := by
  refine Sat.bind (beginWrite_sat ?_ fun _ => .quiet [])
  refine Sat.bind (select_sat ?_ fun _ => .quiet [])
  refine Sat.bind (Sat.orThrow (fun server hs => ?_) (.quiet []))
  have hmem := (findServer_mem hs).1
  refine Sat.bind (select_sat ?_ fun _ => .quiet [])
  refine Sat.bind (Sat.orThrow (fun o ho => ?_) (.quiet []))
  rw [Option.filter_eq_some_iff] at ho
  split
  · refine Sat.bind (Sat.now ?_)
    refine Sat.bind (select_sat ?_ fun _ => .quiet [])
    exact Sat.throw (.quiet [])
  rename_i hopen
  have hat : OpenAt db server o := ⟨hmem, (findOffer_mem ho.1).1, hopen, by simpa using ho.2⟩
  refine Sat.bind (Sat.now ?_)
  split_ifs with hd
  · refine Sat.bind (terminalizeOffer_sat inv hat (by decide) (fun a hv hc => ?_) fun _ => .quiet [])
    refine Sat.bind (commit_sat ?_ fun _ => .quiet [])
    exact Sat.throw (.expired a server o hv hc hd)
  refine Sat.bind (Sat.now ?_)
  refine Sat.bind (select_sat ?_ fun _ => .quiet [])
  split_ifs
  · exact Sat.throw (.quiet [])
  refine Sat.bind (prepareOffer_sat A (fun p hp => ?_) fun _ => .quiet [])
  refine Sat.bind (Sat.now ?_)
  refine Sat.bind (updateOffer_sat ?_ ?_ fun _ => .quiet [])
  · exact hat.find inv
  refine Sat.bind (insertPreparedOffer_sat (fun issued _ hfree => ?_) fun _ => .quiet [])
  refine Sat.bind (insertEvent_sat (fun t => ?_) fun _ => .quiet [])
  refine Sat.bind (commit_sat ?_ fun _ => .quiet [])
  refine Sat.pure ⟨?_, rfl⟩
  have hvalid := Act.valid_replace inv hat hp _ rfl hfree input.actor input.source (db.nextId + 1) t
  have hcommits := Act.commits_keep inv hvalid rfl (by simp)
  simpa [Act.apply, closeRows, Db.logged] using hcommits

theorem revokeOffer_sat (input : RevokeOffer) (inv : Inv db) :
    Sat (revokeOffer input) env ⟨db, db, 0, []⟩
      (fun _ y => Commits db y.committed (tokenOf db) ∧
        (y.trace = [] ∧ y.committed = db ∨ y.trace = [.commit y.committed]))
      fun _ c t => Failed env db c t := by
  refine Sat.bind (beginWrite_sat ?_ fun _ => .quiet [])
  refine Sat.bind (select_sat ?_ fun _ => .quiet [])
  refine Sat.bind (Sat.orThrow (fun server hs => ?_) (.quiet []))
  have hmem := (findServer_mem hs).1
  refine Sat.bind (select_sat ?_ fun _ => .quiet [])
  refine Sat.bind (Sat.orThrow (fun o ho => ?_) (.quiet []))
  rw [Option.filter_eq_some_iff] at ho
  split
  · split_ifs
    · exact Sat.pure ⟨.refl db, Or.inl ⟨rfl, rfl⟩⟩
    · exact Sat.throw (.quiet [])
  rename_i hopen
  have hat : OpenAt db server o := ⟨hmem, (findOffer_mem ho.1).1, hopen, by simpa using ho.2⟩
  refine Sat.bind (Sat.now ?_)
  split_ifs with hd
  · refine Sat.bind (terminalizeOffer_sat inv hat (by decide) (fun a hv hc => ?_) fun _ => .quiet [])
    refine Sat.bind (commit_sat ?_ fun _ => .quiet [])
    exact Sat.throw (.expired a server o hv hc hd)
  · refine Sat.bind (terminalizeOffer_sat inv hat (by decide) (fun a hv hc => ?_) fun _ => .quiet [])
    refine Sat.bind (commit_sat ?_ fun _ => .quiet [])
    exact Sat.pure ⟨hc.commits inv hv (by decide), Or.inr rfl⟩

/-! ### Claim -/

/-- the act of a successful claim: the offer is consumed and the hash of the proposed token stored -/
structure Claimed (env : Env) (db db' : Db) (a : Act) (o : EnrollmentOffer) (hash : String) : Prop where
  valid : a.Valid db
  closed : ∃ now, a.closed = some ⟨o, .consumed, now, none⟩
  minted : a.minted = none
  stored : ∀ s, (a.set s).tokenHash = some hash
  deadline : env.clock 0 < o.expiresAt
  result : db' = a.apply db

theorem claimCandidate_sat (input : ClaimAgent) (candidate : EnrollmentOffer) (hash : String) (inv : Inv db) :
    Sat (claimCandidate A input candidate hash) env ⟨db, db, 0, []⟩
      (fun _ y => ∃ a o, Claimed env db y.committed a o hash ∧ o.id = candidate.id ∧
        y.trace = [.emit (.removeConnection a.server.id), .commit y.committed])
      fun _ c t => Failed env db c t := by
  refine Sat.bind (beginWrite_sat ?_ fun _ => .quiet [])
  refine Sat.bind (select_sat ?_ fun _ => .quiet [])
  split
  · exact Sat.throw (.quiet [])
  rename_i o hfind
  split_ifs with hopen
  · exact Sat.throw (.quiet [])
  refine Sat.bind (verifyPassword_sat A (fun verified _ => ?_) fun _ => .quiet [])
  split_ifs
  · exact Sat.throw (.quiet [])
  refine Sat.bind (select_sat ?_ fun _ => .quiet [])
  refine Sat.bind (Sat.orThrow (fun server hs => ?_) (.quiet []))
  have hmem := findServer_mem hs
  have ho := findOffer_mem hfind
  have hat : OpenAt db server o := ⟨hmem.1, ho.1, by simpa using hopen, hmem.2.symm⟩
  refine Sat.bind (Sat.now ?_)
  split_ifs with hd
  · refine Sat.bind (terminalizeOffer_sat inv hat (by decide) (fun a hv hc => ?_) fun _ => .quiet [])
    refine Sat.bind (commit_sat ?_ fun _ => .quiet [])
    exact Sat.throw (.expired a server o hv hc hd)
  -- from here on the connection has been removed, whatever becomes of the transaction
  have hq : ∀ e : ClaimError, Failed env db db [.emit (.removeConnection server.id)] :=
    fun _ => .quiet [.removeConnection server.id]
  refine Sat.bind (Sat.emit ?_)
  refine Sat.bind (Sat.now ?_)
  refine Sat.bind (updateOffer_sat ?_ ?_ hq)
  · exact hat.find inv
  refine Sat.bind (updateServer_sat ?_ hq)
  refine Sat.bind (insertEvent_sat (fun t => ?_) hq)
  refine Sat.bind (commit_sat ?_ hq)
  have hvalid := Act.valid_close inv hat (by decide : OfferOutcome.consumed ≠ .replaced) (env.clock 1)
    (fun s => { s with
      tokenHash := some hash
      tokenPrefix := some (textHead input.proposedRunToken.value)
      lastRemoteAddr := input.remoteAddr
      updatedAt := env.clock 1 }) (fun _ => rfl) .agent input.source rfl db.nextId t none
  refine Sat.pure ⟨_, o, ⟨hvalid, ⟨_, rfl⟩, rfl, fun _ => rfl, by simpa using hd, ?_⟩, ho.2, rfl⟩
  simp [Act.apply, closeRows, Db.logged, Db.setServer, authorityStatus, OfferOutcome.transition]

theorem claim_sat (input : ClaimAgent) (inv : Inv db) :
    Sat (claim A input) env ⟨db, db, 0, []⟩
      (fun _ y => ∃ a o salt hash, A.hashPassword salt input.proposedRunToken.value = some hash ∧
        Claimed env db y.committed a o hash ∧
        y.trace = [.emit (.removeConnection a.server.id), .commit y.committed])
      fun _ c t => Failed env db c t := by
  refine Sat.bind (findOfferForCode_sat A (fun r _ => ?_) fun _ => .quiet [])
  cases r with
  | none => exact Sat.throw (.quiet [])
  | some candidate =>
    refine Sat.bind (hashPassword_sat A (fun salt hash hh => ?_) fun _ => .quiet [])
    refine Sat.mono (claimCandidate_sat input candidate hash inv) ?_ fun _ _ _ h => h
    rintro _ y ⟨a, o, hc, -, ht⟩
    exact ⟨a, o, salt, hash, hh, hc, ht⟩

/-! ### Authority taken away -/

theorem beginReenrollment_sat (input : BeginReenrollment) (inv : Inv db) :
    Sat (beginReenrollment A input) env ⟨db, db, 0, []⟩
      (fun _ y => match input.mode with
        | .graceful => Quietly db (tokenOf db) y.committed y.trace
        | .emergency => Commits db y.committed (Function.update (tokenOf db) input.serverId none) ∧
            y.trace = [.emit (.removeConnection input.serverId), .commit y.committed])
      fun _ c t => Failed env db c t := by
  refine Sat.bind (beginWrite_sat ?_ fun _ => .quiet [])
  refine Sat.bind (select_sat ?_ fun _ => .quiet [])
  refine Sat.bind (Sat.orThrow (fun server hs => ?_) (.quiet []))
  obtain ⟨hmem, hsid⟩ := findServer_mem hs
  split_ifs with hst
  · exact Sat.throw (.quiet [])
  refine Sat.bind (expireElapsedOutstanding_sat inv hmem (fun v r he => ?_) fun _ => .quiet [])
  refine Sat.bind (Sat.now ?_)
  refine Sat.bind (select_sat ?_ fun _ => .quiet [])
  split
  · exact Sat.throw (.quiet [])
  have hexp := he.commits inv
  have inv' := Moves.inv inv hexp.moves
  have hmem' : server ∈ v.servers := he.servers ▸ hmem
  have hcl : AuthorityStatus.claimed = authorityStatus server := by
    cases hc : authorityStatus server with
    | unclaimed => exact absurd hc hst
    | claimed => rfl
  cases hmode : input.mode with
  | graceful =>
    refine Sat.bind (Sat.pure ?_)
    refine mintLogged_sat A inv' hmem' id (fun _ => rfl) (Db.setServer_id _ _).symm rfl hcl hcl
      (fun issued a hv _ hset hcl => ?_) fun _ => .quiet []
    refine Sat.bind (commit_sat ?_ fun _ => .quiet [])
    refine Sat.pure ⟨?_, rfl⟩
    have hcommits := Act.commits_keep inv' hv hset (by simp [hcl])
    rw [hexp.tokens] at hcommits
    exact hexp.trans hcommits
  | emergency =>
    have hq : ∀ e : ReenrollmentError, Failed env db db [.emit (.removeConnection server.id)] :=
      fun _ => .quiet [.removeConnection server.id]
    refine Sat.bind (Sat.emit ?_)
    refine Sat.bind (clearToken_sat (fun now => ?_) hq)
    refine Sat.bind (Sat.pure ?_)
    refine mintLogged_sat A inv' hmem' (Server.cleared now) (fun _ => rfl) rfl rfl hcl rfl (fun issued a hv ha hset hcl => ?_) hq
    refine Sat.bind (commit_sat ?_ hq)
    refine Sat.pure ⟨?_, by rw [← hsid]; rfl⟩
    have hcommits := Act.commits inv' hv (by simp [hcl])
    rw [ha, hset, hexp.tokens, hsid] at hcommits
    exact hexp.trans hcommits

/-- the open offer of a server whose authority is revoked is closed, expired or revoked -/
theorem closeOpenOffer_sat {x : Snap Db Effect} {server : Server} {actor : Actor} {source : String}
    {found : Option EnrollmentOffer} (inv : Inv x.view) (hfound : ∀ o, found = some o → OpenAt x.view server o)
    {ok : Unit → Snap Db Effect → Prop} {err : RevokeAuthorityError → Db → List (Visible Db Effect) → Prop}
    (h : ∀ v r, Commits x.view v (tokenOf x.view) → v.servers = x.view.servers →
      ok () { x with view := v, reads := r })
    (herr : ∀ e, err e x.committed x.trace) : Sat (closeOpenOffer server actor source found) env x ok err := by
  cases found with
  | none => exact Sat.pure (h _ _ (.refl _) rfl)
  | some o =>
    refine Sat.bind (Sat.now ?_)
    have hoc : (if o.expiresAt ≤ env.clock x.reads then OfferOutcome.expired else .revoked) ≠ .replaced ∧
        (if o.expiresAt ≤ env.clock x.reads then OfferOutcome.expired else .revoked) ≠ .consumed := by
      split_ifs <;> decide
    exact terminalizeOffer_sat (x := { x with reads := x.reads + 1 }) inv (hfound o rfl) hoc.1
      (fun a hv hc => h _ _ (hc.commits inv hv hoc.2) hc.servers) herr

/-- clearing the token of an unclaimed server changes nothing -/
theorem unclaimed_update (inv : Inv db) {server : Server} (hs : server ∈ db.servers)
    (hst : authorityStatus server ≠ .claimed) : Function.update (tokenOf db) server.id none = tokenOf db := by
  have hnone : server.tokenHash = none := by
    unfold authorityStatus at hst
    split_ifs at hst with hsome
    · exact absurd rfl hst
    · simpa using hsome
  rw [← hnone, ← tokenOf_mem inv hs, Function.update_eq_self]

theorem revokeAuthority_sat (input : RevokeAuthority) (inv : Inv db) :
    Sat (revokeAuthority input) env ⟨db, db, 0, []⟩
      (fun _ y => Commits db y.committed (Function.update (tokenOf db) input.serverId none) ∧
        y.trace = [.commit y.committed, .emit (.removeConnection input.serverId)])
      fun _ c t => Failed env db c t := by
  refine Sat.bind (beginWrite_sat ?_ fun _ => .quiet [])
  refine Sat.bind (select_sat ?_ fun _ => .quiet [])
  refine Sat.bind (Sat.orThrow (fun server hs => ?_) (.quiet []))
  obtain ⟨hmem, hsid⟩ := findServer_mem hs
  refine Sat.bind (select_sat ?_ fun _ => .quiet [])
  -- the second condition is read again from `server`, so both are decided here
  split_ifs with hidle hst
  · refine Sat.bind (commit_sat ?_ fun _ => .quiet [])
    refine Sat.bind (Sat.emit ?_)
    refine Sat.pure ⟨?_, by rw [← hsid]; rfl⟩
    rw [← hsid, unclaimed_update inv hmem (by rw [hidle.1]; decide)]
    exact .refl db
  · refine Sat.bind (closeOpenOffer_sat inv (fun o ho => openAt_of_find hmem ho) (fun v r hv hvs => ?_)
      fun _ => .quiet [])
    refine Sat.bind (clearToken_sat (fun now => ?_) fun _ => .quiet [])
    refine Sat.bind (insertEvent_sat (fun t => ?_) fun _ => .quiet [])
    refine Sat.bind (commit_sat ?_ fun _ => .quiet [])
    refine Sat.bind (Sat.emit ?_)
    refine Sat.pure ⟨?_, by rw [← hsid]; rfl⟩
    have inv' := Moves.inv inv hv.moves
    have hvalid := Act.valid_clear (hvs ▸ hmem : server ∈ v.servers) hst now input.actor input.source v.nextId t
    have hcommits := Act.commits inv' hvalid (by simp)
    rw [hv.tokens] at hcommits
    rw [← hsid]
    refine hv.trans ?_
    simpa [Act.apply, closeRows, Db.logged, Db.setServer, Server.cleared] using hcommits
  · refine Sat.bind (closeOpenOffer_sat inv (fun o ho => openAt_of_find hmem ho) (fun v r hv hvs => ?_)
      fun _ => .quiet [])
    refine Sat.bind (commit_sat ?_ fun _ => .quiet [])
    refine Sat.bind (Sat.emit ?_)
    refine Sat.pure ⟨?_, by rw [← hsid]; rfl⟩
    rw [← hsid, unclaimed_update inv hmem hst]
    exact hv

/-! ### Deletion -/

/-- the events of a deletion, one for each row, with the view they leave -/
structure LoggedDeletions (db : Db) (rows : List Server) (v : Db) (events : List AuthorityEvent) : Prop where
  servers : v.servers = db.servers
  offers : v.offers = db.offers
  log : v.events = db.events ++ events
  next : db.nextId ≤ v.nextId
  each : List.Forall₂ DeletionEvent rows events

theorem recordServerDeletedTx_sat {x : Snap Db Effect} {row : Server} {actor : Actor} {source : String}
    {ok : Unit → Snap Db Effect → Prop} {err : AppError → Db → List (Visible Db Effect) → Prop}
    (h : ∀ e id r, DeletionEvent row e → x.view.nextId ≤ id →
      ok () { x with view := { x.view with events := x.view.events ++ [e], nextId := id }, reads := r })
    (herr : ∀ e, err e x.committed x.trace) : Sat (recordServerDeletedTx row actor source) env x ok err :=
  insertEvent_sat (fun _ => h _ _ _ ⟨rfl, rfl, rfl, rfl⟩ (Nat.le_succ _)) herr

theorem deletions_sat {rows : List Server} {actor : Actor} {source : String} {trace : List (Visible Db Effect)} {r : ℕ}
    {ok : Unit → Snap Db Effect → Prop} {err : AppError → Db → List (Visible Db Effect) → Prop}
    (h : ∀ v events r, LoggedDeletions db rows v events → ok () ⟨db, v, r, trace⟩) (herr : ∀ e, err e db trace) :
    Sat (Txn.forEach (fun row => recordServerDeletedTx row actor source) rows) env ⟨db, db, r, trace⟩ ok err := by
  refine Sat.forEach (fun todo y => ∃ done v events r, done ++ todo = rows ∧ LoggedDeletions db done v events ∧
    y = ⟨db, v, r, trace⟩) rows ⟨[], db, [], r, rfl, ⟨rfl, rfl, by simp, Nat.le_refl _, .nil⟩, rfl⟩ ?_ ?_
  · rintro row todo y ⟨done, v, events, r, hrows, hlog, rfl⟩
    refine recordServerDeletedTx_sat (fun e id r' he hid => ?_) herr
    refine ⟨done ++ [row], _, events ++ [e], r', by simpa using hrows, ?_, rfl⟩
    refine ⟨hlog.servers, hlog.offers, ?_, hlog.next.trans hid, ?_⟩
    · show v.events ++ [e] = db.events ++ (events ++ [e])
      rw [hlog.log, List.append_assoc]
    · exact List.rel_append hlog.each (.cons he .nil)
  · rintro y ⟨done, v, events, r, hrows, hlog, rfl⟩
    rw [List.append_nil] at hrows
    subst hrows
    exact h v events r hlog

theorem emitAll_sat {rows : List Server} {x : Snap Db Effect} {ok : Unit → Snap Db Effect → Prop}
    {err : AppError → Db → List (Visible Db Effect) → Prop}
    (h : ok () { x with trace := x.trace ++ (rows.map fun r => Effect.removeConnection r.id).map .emit }) :
    Sat (Txn.forEach (fun row : Server => Txn.emit (.removeConnection row.id)) rows) env x ok err := by
  induction rows generalizing x with
  | nil => exact Sat.pure (by simpa using h)
  | cons row rows ih =>
    refine Sat.bind (Sat.emit (ih ?_))
    simpa using h

theorem deleteServerScopedRows_sat {x : Snap Db Effect} {ok : Unit → Snap Db Effect → Prop}
    {err : AppError → Db → List (Visible Db Effect) → Prop} (h : ok () x) (herr : ∀ e, err e x.committed x.trace) :
    Sat deleteServerScopedRows env x ok err := by
  refine Sat.forEach (fun _ y => y = x) serverScopedTables rfl ?_ (fun y hy => hy ▸ h)
  rintro table todo y rfl
  refine statement_sat (fun a v hv => ?_) herr
  cases hv
  rfl

/-- the tokens after the servers `ids` are gone -/
def without (ids : List ℕ) (tokens : ℕ → Option String) (sid : ℕ) : Option String :=
  if sid ∈ ids then none else tokens sid

@[simp] theorem without_nil (tokens : ℕ → Option String) : without [] tokens = tokens := by
  funext sid
  simp [without]

theorem Commits.delete (inv : Inv db) {rows : List Server} {v : Db} {events : List AuthorityEvent}
    (hrows : List.Sublist rows db.servers) (hlog : LoggedDeletions db rows v events) :
    Commits db { v with
      servers := v.servers.filter fun s => !(rows.map (·.id)).contains s.id
      offers := v.offers.filter fun o => !(rows.map (·.id)).contains o.targetServerId }
      (without (rows.map (·.id)) (tokenOf db)) := by
  obtain ⟨servers, offers, log, nextId⟩ := v
  obtain ⟨rfl, rfl, rfl, hn, hev⟩ := hlog
  have hmove := Move.delete db rows events nextId (fun r hr => hrows.subset hr)
    (inv.server_nodup.sublist (hrows.map _)) hn hev
  refine ⟨.single hmove, ?_, fun o ho _ => (List.mem_filter.1 ho).1⟩
  funext sid
  simp only [without, tokenOf, Db.findServer, List.find?_filter]
  split_ifs with hin
  · rw [List.find?_eq_none.2]
    · rfl
    · intro s _ hs
      simp only [Bool.not_eq_true', beq_iff_eq, decide_eq_true_eq] at hs
      obtain ⟨hnot, rfl⟩ := hs
      rw [List.contains_iff_mem.2 hin] at hnot
      cases hnot
  · congr 2
    funext s
    by_cases hs : s.id = sid
    · simpa [hs] using hin
    · simp [hs]

theorem deleteServers_sat (input : DeleteServers) (inv : Inv db) :
    Sat (deleteServers input) env ⟨db, db, 0, []⟩
      (fun rows y => (∀ r ∈ rows, r.id ∈ input.serverIds ∧ ∀ s ∈ y.committed.servers, s.id ≠ r.id) ∧
        (∀ s ∈ db.servers, s.id ∈ input.serverIds → s ∈ rows) ∧
        Commits db y.committed (without (rows.map (·.id)) (tokenOf db)) ∧
        (y.trace = [] ∧ rows = [] ∧ y.committed = db ∨
          y.trace = (rows.map fun r => Effect.removeConnection r.id).map .emit ++ [.commit y.committed]))
      fun _ c t => Failed env db c t := by
  unfold deleteServers
  have hsub : ∀ sid, sid ∈ (input.serverIds.mergeSort (· ≤ ·)).dedup ↔ sid ∈ input.serverIds := by simp
  generalize (input.serverIds.mergeSort (· ≤ ·)).dedup = ids at hsub
  cases ids with
  | nil =>
    have hnone : ∀ s ∈ db.servers, s.id ∈ input.serverIds → s ∈ ([] : List Server) := fun s _ hs => nomatch (hsub _).2 hs
    exact Sat.pure ⟨by simp, hnone, (without_nil (tokenOf db)).symm ▸ Commits.refl db, Or.inl ⟨rfl, rfl, rfl⟩⟩
  | cons first rest =>
    refine Sat.bind (beginWrite_sat ?_ fun _ => .quiet [])
    refine Sat.bind (select_sat ?_ fun _ => .quiet [])
    have hrows : ∀ r ∈ db.servers.filter fun s => (first :: rest).contains s.id, r.id ∈ input.serverIds := by
      intro r hr
      obtain ⟨-, h2⟩ := List.mem_filter.1 hr
      exact (hsub _).1 (by simpa using h2)
    have hall : ∀ s ∈ db.servers, s.id ∈ input.serverIds →
        s ∈ db.servers.filter fun s => (first :: rest).contains s.id :=
      fun s hs hin => List.mem_filter.2 ⟨hs, List.contains_iff_mem.2 ((hsub _).2 hin)⟩
    have hsublist : List.Sublist (db.servers.filter fun s => (first :: rest).contains s.id) db.servers :=
      List.filter_sublist
    generalize (db.servers.filter fun s => (first :: rest).contains s.id) = rows at hrows hall hsublist
    -- the connections go before anything is written; a later failure leaves the tables alone
    have hq : ∀ e : AppError, Failed env db db ((rows.map fun r => Effect.removeConnection r.id).map .emit) :=
      fun _ => .quiet _
    refine Sat.bind (emitAll_sat ?_)
    refine Sat.bind (deletions_sat (fun v events r hlog => ?_) hq)
    show Sat (if rows.map (·.id) = [] then _ else _) _ _ _ _
    split_ifs with hempty
    · refine Sat.bind (commit_sat ?_ hq)
      refine Sat.pure ⟨by simp [List.map_eq_nil_iff.1 hempty], hall, ?_, Or.inr rfl⟩
      simpa [hempty] using Commits.delete inv hsublist hlog
    · refine Sat.bind (deleteServerScopedRows_sat ?_ hq)
      refine Sat.bind (statement_sat (fun a w hw => ?_) hq)
      cases hw
      refine Sat.bind (commit_sat ?_ hq)
      refine Sat.pure ⟨fun r hr => ⟨hrows r hr, fun s hs hid => ?_⟩, hall, Commits.delete inv hsublist hlog,
        Or.inr rfl⟩
      have hnot := (List.mem_filter.1 hs).2
      rw [List.contains_iff_mem.2 (hid ▸ List.mem_map_of_mem hr)] at hnot
      cases hnot

/-! ### Every operation -/

/-- what a successful call committed, and what was visible of it -/
def Succeeded (A : Argon2) (db : Db) (c : Call) (db' : Db) (trace : List (Visible Db Effect)) : Prop :=
  match c.op with
  | .onboard _ | .issueOfferForUnclaimed _ | .replaceOffer _ => Quietly db (tokenOf db) db' trace
  | .revokeOffer _ => Commits db db' (tokenOf db) ∧ (trace = [] ∧ db' = db ∨ trace = [.commit db'])
  | .claim input => ∃ a o salt hash, A.hashPassword salt input.proposedRunToken.value = some hash ∧
      Claimed c.env db db' a o hash ∧ trace = [.emit (.removeConnection a.server.id), .commit db']
  | .beginReenrollment input => match input.mode with
    | .graceful => Quietly db (tokenOf db) db' trace
    | .emergency => Commits db db' (Function.update (tokenOf db) input.serverId none) ∧
        trace = [.emit (.removeConnection input.serverId), .commit db']
  | .revokeAuthority input => Commits db db' (Function.update (tokenOf db) input.serverId none) ∧
      trace = [.commit db', .emit (.removeConnection input.serverId)]
  | .deleteServers input => ∃ rows : List Server,
      (∀ r ∈ rows, r.id ∈ input.serverIds ∧ ∀ s ∈ db'.servers, s.id ≠ r.id) ∧
      (∀ s ∈ db.servers, s.id ∈ input.serverIds → s ∈ rows) ∧
      Commits db db' (without (rows.map (·.id)) (tokenOf db)) ∧
      (trace = [] ∧ rows = [] ∧ db' = db ∨ trace = (rows.map fun r => Effect.removeConnection r.id).map .emit ++ [.commit db'])

/-- a contract, read off the answer -/
theorem answer_contract {ε α : Type} {m : Action ε α} {P : Db → List (Visible Db Effect) → Prop}
    {Q : Db → List (Visible Db Effect) → Prop}
    (h : Sat m env ⟨db, db, 0, []⟩ (fun _ y => P y.committed y.trace) fun _ c t => Q c t) :
    ((answer m env db).succeeded = true ∧ P (answer m env db).db (answer m env db).trace) ∨
      ((answer m env db).succeeded = false ∧ Q (answer m env db).db (answer m env db).trace) := by
  unfold answer
  rcases h.run with ⟨a, y, he, hp⟩ | ⟨e, c, t, he, hq⟩
  · simp only [he]
    exact Or.inl ⟨rfl, hp⟩
  · simp only [he]
    exact Or.inr ⟨rfl, hq⟩

theorem exec_contract (inv : Inv db) (c : Call) :
    ((exec A db c).succeeded = true ∧ Succeeded A db c (exec A db c).db (exec A db c).trace) ∨
      ((exec A db c).succeeded = false ∧ Failed c.env db (exec A db c).db (exec A db c).trace) := by
  obtain ⟨op, env⟩ := c
  cases op with
  | onboard input => exact answer_contract (onboard_sat input inv)
  | issueOfferForUnclaimed input => exact answer_contract (issueOfferForUnclaimed_sat input inv)
  | claim input => exact answer_contract (claim_sat input inv)
  | beginReenrollment input => exact answer_contract (beginReenrollment_sat input inv)
  | replaceOffer input => exact answer_contract (replaceOffer_sat input inv)
  | revokeOffer input => exact answer_contract (revokeOffer_sat input inv)
  | revokeAuthority input => exact answer_contract (revokeAuthority_sat input inv)
  | deleteServers input =>
    exact answer_contract (Sat.mono (deleteServers_sat input inv) (fun rows y h => ⟨rows, h⟩) fun _ _ _ h => h)

end Contracts

end ServerBee.Authority
