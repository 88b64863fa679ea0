/-
What one step of an onboarding can do (`ServerOnboarding::onboard`).

The transaction leaves the tables as they were or creates everything of one server (`createServer_run`). `Moves` lists the
steps of a call, each with what its guards have checked; `step_moves` is the only place where the step function is opened.
-/
import ServerBee.Authority.Specs
import ServerBee.Onboarding.Model

namespace ServerBee.Onboarding

open ServerBee.Lib ServerBee.Lib.Txn ServerBee.Authority

/-! ## The transaction -/

/-- the view of a transaction on `db` that has written these rows so far -/
structure Wrote (db : Db) (servers : List Authority.Server) (tags : List TagRow) (offers : List EnrollmentOffer)
    (events : List AuthorityEvent) (x : Snap Db Effect) : Prop where
  committed : x.committed = db
  servers : x.view.authority.servers = servers
  offers : x.view.authority.offers = offers
  events : x.view.authority.events = events
  tags : x.view.tags = tags
  requests : x.view.requests = db.requests

section Transaction

variable {env : Env} {x : Snap Db Effect} {db : Db} {servers : List Authority.Server} {tags : List TagRow}
  {offers : List EnrollmentOffer} {events : List AuthorityEvent}

/-- an error leaves the tables, and is none of the lookup -/
abbrev Leaves (db : Db) : OnboardingError → Db → List (Visible Db Effect) → Prop :=
  fun e c _ => c = db ∧ e ≠ .idempotencyConflict

theorem statement_sat {α : Type} {f : Db → Option (α × Db)} {ok : α → Snap Db Effect → Prop} (hx : x.committed = db)
    (h : ∀ a v, f x.view = some (a, v) → ok a { x with view := v }) : Sat (statement f) env x ok (Leaves db) :=
  Sat.stmt h ⟨hx, OnboardingError.noConfusion⟩

theorem checkLimit_sat {maxServers : ℕ} {ok : Unit → Snap Db Effect → Prop} (hx : x.committed = db)
    (h : (0 < maxServers → x.view.authority.servers.length < maxServers) → ok () x) :
    Sat (checkLimit maxServers) env x ok (Leaves db) := by
  unfold checkLimit
  split_ifs with hpos
  · refine Sat.bind (Sat.query ?_ ⟨hx, OnboardingError.noConfusion⟩)
    split_ifs with hfull
    · refine Sat.bind (statement_sat hx fun _ v hv => ?_)
      obtain rfl := (Prod.mk.inj (Option.some.inj hv)).2
      exact Sat.throw ⟨hx, OnboardingError.noConfusion⟩
    · exact Sat.pure (h fun _ => not_le.1 hfull)
  · exact Sat.pure (h fun hno => absurd hno hpos)

theorem newId_wrote {ok : ℕ → Snap Db Effect → Prop} (hx : Wrote db servers tags offers events x)
    (h : ∀ id y, Wrote db servers tags offers events y → ok id y) : Sat (authority newId) env x ok (Leaves db) := by
  refine Sat.zoom (Sat.modifyGet ?_)
  exact h _ _ ⟨hx.committed, hx.servers, hx.offers, hx.events, hx.tags, hx.requests⟩

theorem drawOccurrences_wrote {ok : ℕ → Snap Db Effect → Prop} (hx : Wrote db servers tags offers events x)
    (h : ∀ id y, Wrote db servers tags offers events y → ok id y) : Sat drawOccurrences env x ok (Leaves db) := by
  unfold drawOccurrences
  refine Sat.zoom (Sat.modifyGet ?_)
  exact h _ _ ⟨hx.committed, hx.servers, hx.offers, hx.events, hx.tags, hx.requests⟩

theorem insertServer_wrote {row : Authority.Server} {profile : ProfileRow} {ok : Unit → Snap Db Effect → Prop}
    (hx : Wrote db servers tags offers events x)
    (h : (∀ s ∈ servers, s.id ≠ row.id) → ∀ y, Wrote db (servers ++ [row]) tags offers events y → ok () y) :
    Sat (insertServer row profile) env x ok (Leaves db) := by
  refine statement_sat hx.committed fun _ v hv => ?_
  split_ifs at hv with hfree
  obtain rfl := (Prod.mk.inj (Option.some.inj hv)).2
  refine h (fun s hs heq => hfree ?_) _ ⟨hx.committed, by simp [hx.servers], hx.offers, hx.events, hx.tags, hx.requests⟩
  rw [← hx.servers] at hs
  exact List.find?_isSome.2 ⟨s, hs, by simpa using heq⟩

theorem insertTags_wrote {serverId : ℕ} {newTags : List String} {ok : Unit → Snap Db Effect → Prop}
    (hx : Wrote db servers tags offers events x)
    (h : ∀ y, Wrote db servers (tags ++ newTags.map (⟨serverId, ·⟩)) offers events y → ok () y) :
    Sat (Txn.forEach (insertTagRow serverId) newTags) env x ok (Leaves db) := by
  refine Sat.forEach (fun rest y => ∃ written, written ++ rest = newTags ∧
    Wrote db servers (tags ++ written.map (⟨serverId, ·⟩)) offers events y) newTags ⟨[], rfl, by simpa using hx⟩ ?_ ?_
  · rintro tag rest y ⟨written, hall, hy⟩
    refine statement_sat hy.committed fun _ v hv => ?_
    split_ifs at hv
    obtain rfl := (Prod.mk.inj (Option.some.inj hv)).2
    refine ⟨written ++ [tag], by simpa using hall, hy.committed, hy.servers, hy.offers, hy.events, ?_, hy.requests⟩
    simp [hy.tags]
  · rintro y ⟨written, hall, hy⟩
    rw [List.append_nil] at hall
    exact h y (hall ▸ hy)

theorem applyDefaults_wrote {serverId : ℕ} {targets : List String} {ok : Unit → Snap Db Effect → Prop}
    (hx : Wrote db servers tags offers events x) (h : ∀ y, Wrote db servers tags offers events y → ok () y) :
    Sat (applyDefaults serverId targets) env x ok (Leaves db) := by
  unfold applyDefaults
  split_ifs with hnone hmany
  · exact Sat.pure (h x hx)
  · exact Sat.throw ⟨hx.committed, OnboardingError.noConfusion⟩
  · refine Sat.bind (statement_sat hx.committed fun _ v hv => ?_)
    obtain rfl := (Prod.mk.inj (Option.some.inj hv)).2
    refine Sat.bind (Sat.now ?_)
    refine Sat.forEach (fun _ y => Wrote db servers tags offers events y) targets ?_ ?_ (fun y hy => h y hy)
    · exact ⟨hx.committed, hx.servers, hx.offers, hx.events, hx.tags, hx.requests⟩
    · intro target rest y hy
      refine Sat.bind (newId_wrote hy fun id z hz => ?_)
      refine statement_sat hz.committed fun _ v hv => ?_
      obtain rfl := (Prod.mk.inj (Option.some.inj hv)).2
      exact ⟨hz.committed, hz.servers, hz.offers, hz.events, hz.tags, hz.requests⟩

/-- the errors of the offer are those of the store -/
theorem issueInitialOffer_store {A : Argon2} {row : Authority.Server} {actor : Actor} {source : String} {ttl : OfferTtl}
    (y : Snap Authority.Db Effect) :
    Sat (issueInitialOfferTx A row actor source ttl : Authority.Action OnboardingError IssuedOffer) env y (fun _ _ => True)
      (fun e _ _ => e ≠ .idempotencyConflict) := by
  have hoffer (z : Snap Authority.Db Effect) : Sat (mintOffer A row.id actor ttl : Authority.Action OnboardingError IssuedOffer) env z
      (fun _ _ => True) (fun e _ _ => e ≠ .idempotencyConflict) := by
    refine Sat.bind (Sat.bind (Sat.now (Sat.bind (Sat.draw fun _ => ?_))))
    refine Sat.bind (Sat.lift (fun _ _ => ?_) fun _ => OnboardingError.noConfusion)
    refine Sat.bind (Sat.bind (Sat.draw fun _ => Sat.orThrow (fun _ _ => ?_) OnboardingError.noConfusion))
    refine Sat.bind (Sat.modifyGet (Sat.pure ?_))
    exact Sat.bind (Sat.stmt (fun _ _ _ => Sat.pure trivial) OnboardingError.noConfusion)
  refine Sat.bind (Sat.mono (hoffer y) (fun _ z _ => ?_) fun _ _ _ h => h)
  refine Sat.bind (Sat.bind (Sat.modifyGet (Sat.bind (Sat.now ?_))))
  exact Sat.stmt (fun _ _ _ => Sat.pure trivial) OnboardingError.noConfusion

theorem issueInitialOffer_wrote {A : Argon2} {row : Authority.Server} {actor : Actor} {source : String} {ttl : OfferTtl}
    {ok : IssuedOffer → Snap Db Effect → Prop} (hx : Wrote db servers tags offers events x)
    (h : ∀ issued o e y, o.outcome = none → o.targetServerId = row.id → e.serverId = row.id →
      e.transition = .initialOfferIssued → Wrote db servers tags (offers ++ [o]) (events ++ [e]) y → ok issued y) :
    Sat (authority (issueInitialOfferTx A row actor source ttl)) env x ok (Leaves db) := by
  have hrows : Sat (issueInitialOfferTx A row actor source ttl : Authority.Action OnboardingError IssuedOffer) env ⟨x.committed.authority, x.view.authority, x.reads, []⟩
      (fun issued y => ok issued { x with view := { x.view with authority := y.view }, reads := y.reads })
      (fun _ _ _ => True) := by
    refine Sat.bind (mintOffer_sat A (fun issued o _ ho _ => ?_) fun _ => trivial)
    refine Sat.bind (insertEvent_sat (fun t => Sat.pure ?_) fun _ => trivial)
    refine h issued o (EventInput.row ⟨row, actor, source, some issued.id, .initialOfferIssued, none, none, .unclaimed,
      .unclaimed⟩ (x.view.authority.nextId + 1) t) _ ho.isOpen ho.target rfl rfl
      ⟨hx.committed, hx.servers, ?_, ?_, hx.tags, hx.requests⟩
    · simp [Db.logged, Db.withOffer, hx.offers]
    · simp [Db.logged, Db.withOffer, hx.events]
  exact Sat.zoom (Sat.mono (Sat.and hrows (issueInitialOffer_store _)) (fun _ _ h => h.1) fun e _ _ h => ⟨hx.committed, h.2⟩)

/-- everything of one server, and a stored request for it -/
structure Onboarded (cfg : Config) (input : OnboardServer) (p : Prepared) (db db' : Db) (serverId : ℕ) : Prop where
  limit : 0 < cfg.maxServers → db.authority.servers.length < cfg.maxServers
  server : ∃ row, row.id = serverId ∧ row.name = p.normalized.name ∧ db'.authority.servers = db.authority.servers ++ [row]
  fresh : ∀ s ∈ db.authority.servers, s.id ≠ serverId
  tags : db'.tags = db.tags ++ p.normalized.tags.map (⟨serverId, ·⟩)
  offer : ∃ o e, o.targetServerId = serverId ∧ o.outcome = none ∧ e.serverId = serverId ∧
    db'.authority.offers = db.authority.offers ++ [o] ∧ db'.authority.events = db.authority.events ++ [e]
  request : ∃ r : RequestRow, r.actorId = input.actorId ∧ r.requestId = input.requestId ∧
    r.normalizedInputHash = p.inputHash ∧ r.serverId = serverId ∧ db'.requests = db.requests ++ [r]
  first : ∀ r ∈ db.requests, ¬ (r.actorId = input.actorId ∧ r.requestId = input.requestId)

theorem createServer_sat (cfg : Config) (input : OnboardServer) (p : Prepared) (targets : List String) (env : Env) (db : Db) :
    Sat (createServer cfg input p targets) env ⟨db, db, 0, []⟩
      (fun r y => Onboarded cfg input p db y.committed r.1) (Leaves db) := by
  refine Sat.bind (Sat.begin ?_ ⟨rfl, OnboardingError.noConfusion⟩)
  refine Sat.bind (checkLimit_sat rfl fun hlimit => ?_)
  refine Sat.bind (newId_wrote ⟨rfl, rfl, rfl, rfl, rfl, rfl⟩ fun serverId y hy => ?_)
  refine Sat.bind (Sat.now ?_)
  have hnow : Wrote db db.authority.servers db.tags db.authority.offers db.authority.events { y with reads := y.reads + 1 } :=
    ⟨hy.committed, hy.servers, hy.offers, hy.events, hy.tags, hy.requests⟩
  refine Sat.bind (drawOccurrences_wrote hnow fun fresh y hy => ?_)
  refine Sat.bind (Sat.lift (fun schedule _ => ?_) fun _ => ⟨hy.committed, OnboardingError.noConfusion⟩)
  refine Sat.bind (insertServer_wrote hy fun hfresh y hy => ?_)
  refine Sat.bind (insertTags_wrote hy fun y hy => ?_)
  refine Sat.bind (applyDefaults_wrote hy fun y hy => ?_)
  refine Sat.bind (issueInitialOffer_wrote hy fun issued o e y ho htarget he _ hy => ?_)
  refine Sat.bind (newId_wrote hy fun id y hy => ?_)
  refine Sat.bind (statement_sat hy.committed fun _ v hv => ?_)
  split_ifs at hv with htaken
  obtain rfl := (Prod.mk.inj (Option.some.inj hv)).2
  refine Sat.bind (Sat.commit ?_ ⟨hy.committed, OnboardingError.noConfusion⟩)
  refine Sat.pure ⟨hlimit, ⟨_, rfl, rfl, hy.servers⟩, hfresh, hy.tags, ⟨o, e, htarget, ho, he, hy.offers, hy.events⟩,
    ⟨_, rfl, rfl, rfl, rfl, by rw [← hy.requests]⟩, ?_⟩
  intro r hr hpair
  rw [← hy.requests] at hr
  refine htaken (List.any_eq_true.2 ⟨r, hr, ?_⟩)
  simp [hpair.1, hpair.2]

/-- the transaction creates everything or leaves everything -/
theorem createServer_run (cfg : Config) (input : OnboardServer) (p : Prepared) (targets : List String) (env : Env) (db : Db) :
    (∃ serverId enrollment db' trace, (createServer cfg input p targets).run env db = (.ok (serverId, enrollment), db', trace) ∧
      Onboarded cfg input p db db' serverId) ∨
    ∃ e trace, (createServer cfg input p targets).run env db = (.error e, db, trace) ∧ e ≠ .idempotencyConflict := by
  rcases Sat.run (createServer_sat cfg input p targets env db) with ⟨⟨serverId, enrollment⟩, y, hrun, hy⟩ | ⟨e, c, t, hrun, rfl, he⟩
  · exact Or.inl ⟨serverId, enrollment, y.committed, y.trace, hrun, hy⟩
  · exact Or.inr ⟨e, t, hrun, he⟩

end Transaction

/-! ## What one step of a call does -/

/-- the row of the request of a call -/
def Asked (input : OnboardServer) (r : RequestRow) : Prop := r.actorId = input.actorId ∧ r.requestId = input.requestId

/-- what an answer says about the stored requests -/
def AnswerFits (cfg : Config) (db : Db) (input : OnboardServer) : Answer → Prop
  | .ok (.created serverId _) | .ok (.replayed serverId _) =>
    ∃ p, prepare cfg 0 input = .ok p ∧ ∃ r ∈ db.requests, Asked input r ∧ r.normalizedInputHash = p.inputHash ∧ r.serverId = serverId
  | .error .idempotencyConflict =>
    ∃ p, prepare cfg 0 input = .ok p ∧ ∃ r ∈ db.requests, Asked input r ∧ r.normalizedInputHash ≠ p.inputHash
  | .error _ => True

/-- an answer that creates nothing -/
def Answer.Quiet : Answer → Prop
  | .ok (.created _ _) => False
  | _ => True

def Pc.prepared : Pc → Option Prepared
  | .queued _ p | .locked _ p | .found _ p _ | .missing _ p | .ready _ p _ => some p
  | .start | .releasing _ _ | .cleaning _ _ | .leaving _ _ | .done _ => none

/-- the lookup has found no request -/
def Pc.Missed : Pc → Prop
  | .missing _ _ | .ready _ _ _ => True
  | _ => False

/-- the steps of a call, each with what its guards have checked -/
inductive Moves (cfg : Config) (env : Env) (s : State) (c : Call) : Pc → State → Prop where
  | refuse (e : OnboardingError) (hpc : c.pc = .start) (he : e ≠ .idempotencyConflict) (hp : prepare cfg 0 c.input = .error e) :
    Moves cfg env s c (.done (.error e)) s
  | join (lock : ℕ) (p : Prepared) (hpc : c.pc = .start) (hp : prepare cfg 0 c.input = .ok p)
    (hlock : s.requestLocks c.input.lockKey = some lock) : Moves cfg env s c (.queued lock p) s
  | enroll (p : Prepared) (hpc : c.pc = .start) (hp : prepare cfg 0 c.input = .ok p)
    (hlock : s.requestLocks c.input.lockKey = none) :
    Moves cfg env s c (.queued s.nextLock p) { s with
      requestLocks := Function.update s.requestLocks c.input.lockKey (some s.nextLock)
      nextLock := s.nextLock + 1 }
  | enter (lock : ℕ) (p : Prepared) (hpc : c.pc = .queued lock p) (hfree : ∀ d ∈ s.calls, d.pc.guard ≠ some lock) :
    Moves cfg env s c (.locked lock p) s
  | miss (lock : ℕ) (p : Prepared) (hpc : c.pc = .locked lock p) (hnone : ∀ r ∈ s.db.requests, ¬ Asked c.input r) :
    Moves cfg env s c (.missing lock p) s
  | find (lock : ℕ) (p : Prepared) (r : RequestRow) (hpc : c.pc = .locked lock p) (hr : r ∈ s.db.requests)
    (hasked : Asked c.input r) (hhash : r.normalizedInputHash = p.inputHash) : Moves cfg env s c (.found lock p r.serverId) s
  | settle (lock : ℕ) (p : Prepared) (hpc : c.pc = .missing lock p) (targets : List String) :
    Moves cfg env s c (.ready lock p targets) s
  | answer (lock : ℕ) (a : Answer) (hguard : c.pc.guard = some lock) (hopen : c.pc.answer = none) (hquiet : a.Quiet)
    (hfits : (∀ p, c.pc.prepared = some p → prepare cfg 0 c.input = .ok p) →
      (∀ l p serverId, c.pc = .found l p serverId → ∃ r ∈ s.db.requests, Asked c.input r ∧
        r.normalizedInputHash = p.inputHash ∧ r.serverId = serverId) → AnswerFits cfg s.db c.input a)
    (herror : ¬ c.pc.Missed → ∀ e, a = .error e → e = .idempotencyConflict ∨ (∃ x, e = .store x) ∧
      (env.fails 0 = true ∨ env.fails 1 = true ∨ ∃ l p serverId, c.pc = .found l p serverId ∧
        ∀ server ∈ s.db.authority.servers, server.id ≠ serverId)) :
    Moves cfg env s c (.releasing lock a) s
  | commit (lock : ℕ) (p : Prepared) (targets : List String) (serverId : ℕ) (enrollment : IssuedOffer) (db : Db)
    (hpc : c.pc = .ready lock p targets) (hdb : Onboarded cfg c.input p s.db db serverId) :
    Moves cfg env s c (.releasing lock (.ok (.created serverId enrollment))) { s with db := db }
  | release (lock : ℕ) (a : Answer) (hpc : c.pc = .releasing lock a) : Moves cfg env s c (.cleaning lock a) s
  | keep (lock : ℕ) (a : Answer) (hpc : c.pc = .cleaning lock a) : Moves cfg env s c (.leaving lock a) s
  | drop (lock : ℕ) (a : Answer) (hpc : c.pc = .cleaning lock a) (hcount : s.strongCount lock = 2) :
    Moves cfg env s c (.leaving lock a) { s with requestLocks := Function.update s.requestLocks c.input.lockKey none }
  | leave (lock : ℕ) (a : Answer) (hpc : c.pc = .leaving lock a) : Moves cfg env s c (.done a) s
  | stay : Moves cfg env s c c.pc s

theorem prepare_fresh (cfg : Config) (f f' : ℕ) (input : OnboardServer) : prepare cfg f input = prepare cfg f' input := by
  unfold prepare
  rw [fromInput_fresh f f']

theorem findRequest_none {actorId requestId : String} {db : Db} (h : findRequest actorId requestId db = none) {r : RequestRow}
    (hr : r ∈ db.requests) : ¬ (r.actorId = actorId ∧ r.requestId = requestId) := by
  have := List.find?_eq_none.1 h r hr
  simpa using this

theorem findRequest_some {actorId requestId : String} {db : Db} {r : RequestRow} (h : findRequest actorId requestId db = some r) :
    r ∈ db.requests ∧ r.actorId = actorId ∧ r.requestId = requestId := by
  refine ⟨List.mem_of_find?_eq_some h, ?_⟩
  have := List.find?_some h
  simpa using this

theorem fromInput_error {C : Renewal.Crates} {f : ℕ} {profile : ServerProfile} {e : OnboardingError}
    (h : NormalizedProfile.fromInput C f profile = .error e) : e ≠ .idempotencyConflict := by
  unfold NormalizedProfile.fromInput at h
  dsimp only at h
  split_ifs at h
  all_goals try
    obtain rfl := Except.error.inj h
    exact OnboardingError.noConfusion
  split at h
  · obtain rfl := Except.error.inj h
    exact OnboardingError.noConfusion
  · split at h
    · obtain rfl := Except.error.inj h
      exact OnboardingError.noConfusion
    · cases h

/-- an input that is refused is refused as such -/
theorem prepare_error {cfg : Config} {f : ℕ} {input : OnboardServer} {e : OnboardingError} (h : prepare cfg f input = .error e) :
    e ≠ .idempotencyConflict := by
  unfold prepare at h
  dsimp only at h
  split at h
  · rename_i e' he'
    obtain rfl := Except.error.inj h
    exact fromInput_error he'
  · split_ifs at h
    obtain rfl := Except.error.inj h
    exact OnboardingError.noConfusion

theorem answerFits_error {cfg : Config} {db : Db} {input : OnboardServer} {e : OnboardingError} (he : e ≠ .idempotencyConflict) :
    AnswerFits cfg db input (.error e) := by
  cases e with
  | idempotencyConflict => exact absurd rfl he
  | invalid message => trivial
  | validation message => trivial
  | limitReached maxServers => trivial
  | store e => trivial

theorem authorityState_fits {cfg : Config} {env : Env} {serverId : ℕ} {db : Db} {input : OnboardServer} {p : Prepared}
    (hp : prepare cfg 0 input = .ok p)
    (hr : ∃ r ∈ db.requests, Asked input r ∧ r.normalizedInputHash = p.inputHash ∧ r.serverId = serverId) :
    AnswerFits cfg db input (authorityState env serverId db) := by
  unfold authorityState
  split_ifs
  · trivial
  · split
    · trivial
    · rename_i server hserver
      have hid : server.id = serverId := by
        have := List.find?_some hserver
        simpa using this
      refine ⟨p, hp, ?_⟩
      rwa [hid]

theorem authorityState_quiet (env : Env) (serverId : ℕ) (db : Db) : (authorityState env serverId db).Quiet := by
  unfold authorityState
  split_ifs
  · trivial
  · split <;> trivial

theorem authorityState_error {env : Env} {serverId : ℕ} {db : Db} {e : OnboardingError}
    (h : authorityState env serverId db = .error e) : (∃ x, e = .store x) ∧
      (env.fails 0 = true ∨ env.fails 1 = true ∨ ∀ server ∈ db.authority.servers, server.id ≠ serverId) := by
  unfold authorityState at h
  split_ifs at h with hfails
  · rw [Bool.or_eq_true] at hfails
    exact ⟨⟨_, (Except.error.inj h).symm⟩, hfails.imp_right Or.inl⟩
  · split at h
    · rename_i hnone
      refine ⟨⟨_, (Except.error.inj h).symm⟩, Or.inr (Or.inr fun server hs => ?_)⟩
      simpa using List.find?_eq_none.1 hnone server hs
    · cases h

theorem step_moves (cfg : Config) (env : Env) (fresh : ℕ) (s : State) (c : Call) :
    Moves cfg env s c (c.step cfg env fresh s).1 (c.step cfg env fresh s).2 := by
  obtain ⟨input, pc⟩ := c
  unfold Call.step
  cases pc with
  | start =>
    dsimp only
    rw [prepare_fresh cfg fresh 0]
    cases hp : prepare cfg 0 input with
    | error e => exact .refuse e rfl (prepare_error hp) hp
    | ok p =>
      dsimp only
      cases hlock : s.requestLocks input.lockKey with
      | none => exact .enroll p rfl hp hlock
      | some lock => exact .join lock p rfl hp hlock
  | queued lock p =>
    dsimp only
    split_ifs with hbusy
    · exact .stay
    · refine .enter lock p rfl fun d hd hno => hbusy (List.any_eq_true.2 ⟨d, hd, ?_⟩)
      simp [hno]
  | locked lock p =>
    dsimp only
    split_ifs with hfails
    · refine .answer lock _ rfl rfl trivial (fun _ _ => trivial) fun _ e he => ?_
      obtain rfl := Except.error.inj he
      exact Or.inr ⟨⟨_, rfl⟩, Or.inl hfails⟩
    · cases hfound : findRequest input.actorId input.requestId s.db with
      | none => exact .miss lock p rfl fun r hr => findRequest_none hfound hr
      | some r =>
        obtain ⟨hr, hasked⟩ := findRequest_some hfound
        dsimp only
        split_ifs with hhash
        · refine .answer lock _ rfl rfl trivial (fun hp _ => ⟨p, hp p rfl, r, hr, hasked, hhash⟩) fun _ e he => ?_
          exact Or.inl (Except.error.inj he).symm
        · exact .find lock p r rfl hr hasked (not_not.1 hhash)
  | found lock p serverId =>
    refine .answer lock _ rfl rfl (authorityState_quiet env serverId s.db)
      (fun hp hr => authorityState_fits (hp p rfl) (hr lock p serverId rfl)) fun _ e he => ?_
    obtain ⟨hstore, hwhy⟩ := authorityState_error he
    exact Or.inr ⟨hstore, hwhy.imp_right fun h => h.imp_right fun hnone => ⟨lock, p, serverId, rfl, hnone⟩⟩
  | missing lock p =>
    dsimp only
    split_ifs with hfails
    · exact .answer lock _ rfl rfl trivial (fun _ _ => trivial) fun hno => absurd trivial hno
    · exact .settle lock p rfl _
  | ready lock p targets =>
    dsimp only
    rcases createServer_run cfg input p targets env s.db with ⟨serverId, enrollment, db', trace, hrun, hdb⟩ | ⟨e, trace, hrun, he⟩
    · rw [hrun]
      exact .commit lock p targets serverId enrollment db' rfl hdb
    · rw [hrun]
      exact .answer lock _ rfl rfl trivial (fun _ _ => answerFits_error he) fun hno => absurd trivial hno
  | releasing lock a => exact .release lock a rfl
  | cleaning lock a =>
    dsimp only
    split_ifs with h
    · exact .drop lock a rfl h.2
    · exact .keep lock a rfl
  | leaving lock a => exact .leave lock a rfl
  | done a => exact .stay

end ServerBee.Onboarding
