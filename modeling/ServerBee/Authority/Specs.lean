/-
What each operation may commit.

Every operation runs as one transaction over a state `db` that satisfies the invariant:
- on success it has committed a sequence of moves, and `Commits` says what became of the tokens and of the consumed
  offers, with the order of the commit and the connection removals;
- on an error (`Failed`) nothing was committed, or exactly one elapsed offer was materialised as expired, the deadline
  having been compared with the call's first clock read.

The helpers come first, each as one rule of the logic, under the names the source gives them.
-/
import ServerBee.Authority.Moves

namespace ServerBee.Authority

open ServerBee.Lib ServerBee.Lib.Txn

/-! ## Tokens and consumed offers -/

/-- the stored run-token hash of a server id; none without a row -/
def tokenOf (db : Db) (sid : ℕ) : Option String := (db.findServer sid).bind fun s => s.tokenHash

structure Commits (db db' : Db) (tokens : ℕ → Option String) : Prop where
  moves : Moves db db'
  tokens : tokenOf db' = tokens
  consumed : ∀ o ∈ db'.offers, o.outcome = some .consumed → o ∈ db.offers

theorem Commits.refl (db : Db) : Commits db db (tokenOf db) := ⟨.refl db, rfl, fun _ ho _ => ho⟩

theorem Commits.trans {db db' db'' : Db} {tokens : ℕ → Option String} (h1 : Commits db db' (tokenOf db))
    (h2 : Commits db' db'' tokens) : Commits db db'' tokens :=
  ⟨h1.moves.trans h2.moves, h2.tokens, fun o ho hc => h1.consumed o (h2.consumed o ho hc) hc⟩

theorem tokenOf_mem {db : Db} (h : Inv db) {s : Server} (hs : s ∈ db.servers) : tokenOf db s.id = s.tokenHash := by
  simp [tokenOf, h.findServer hs]

/-- a row that appears has no token, and neither had its id before -/
theorem Commits.onboard {db : Db} {row : Server} {nextId : ℕ} (hid : row.id = db.nextId) (hn : db.nextId < nextId)
    (ht : row.tokenHash = none) :
    Commits db { db with servers := db.servers ++ [row], nextId := nextId } (tokenOf db) := by
  refine ⟨.single (.onboard db row nextId hid hn ht), ?_, fun _ ho _ => ho⟩
  funext sid
  unfold tokenOf Db.findServer
  rw [List.find?_append]
  cases hf : db.servers.find? (fun s => s.id == sid) with
  | some s => rfl
  | none =>
    by_cases he : row.id = sid
    · simp [he, ht]
    · simp [he]

section Act

variable {db : Db} {a : Act}

theorem Act.tokenOf (h : Inv db) (hv : a.Valid db) :
    tokenOf (a.apply db) = Function.update (tokenOf db) a.server.id (a.set a.server).tokenHash := by
  funext sid
  by_cases hs : sid = a.server.id
  · subst hs
    simp [Authority.tokenOf, Act.findServer hv, h.findServer hv.server_mem]
  · rw [Function.update_of_ne hs]
    simp only [Authority.tokenOf, Act.findServer hv]
    cases hf : db.findServer sid with
    | none => rfl
    | some s =>
      have hne : ¬ s.id = a.server.id := fun e => hs ((findServer_mem hf).2.symm.trans e)
      simp [hne]

theorem Act.commits (h : Inv db) (hv : a.Valid db) (hc : ∀ c, a.closed = some c → c.outcome ≠ .consumed) :
    Commits db (a.apply db) (Function.update (Authority.tokenOf db) a.server.id (a.set a.server).tokenHash) := by
  refine ⟨.single (.act db a hv), Act.tokenOf h hv, ?_⟩
  intro o ho ho'
  rcases Act.mem_offers h hv ho with ⟨h1, -⟩ | ⟨c, hcl, rfl⟩ | hm
  · exact h1
  · simp only [EnrollmentOffer.close, Option.some.injEq] at ho'
    exact absurd ho' (hc c hcl)
  · rw [(hv.mints o hm).1] at ho'
    cases ho'

/-- an act that does not touch the server row -/
theorem Act.commits_keep (h : Inv db) (hv : a.Valid db) (hs : a.set = id)
    (hc : ∀ c, a.closed = some c → c.outcome ≠ .consumed) : Commits db (a.apply db) (Authority.tokenOf db) := by
  have hcommits := Act.commits h hv hc
  rwa [hs, id, ← tokenOf_mem h hv.server_mem, Function.update_eq_self] at hcommits

end Act

/-- the act closes one offer of `server` and does nothing else -/
structure Act.Closes (a : Act) (server : Server) (o : EnrollmentOffer) (outcome : OfferOutcome) : Prop where
  server_eq : a.server = server
  set_eq : a.set = id
  minted_eq : a.minted = none
  closed_eq : ∃ now, a.closed = some ⟨o, outcome, now, none⟩

theorem Act.Closes.commits {db : Db} {a : Act} {server : Server} {o : EnrollmentOffer} {outcome : OfferOutcome}
    (hc : a.Closes server o outcome) (h : Inv db) (hv : a.Valid db) (ho : outcome ≠ .consumed) :
    Commits db (a.apply db) (Authority.tokenOf db) := by
  refine Act.commits_keep h hv hc.set_eq fun c hcl => ?_
  obtain ⟨now, he⟩ := hc.closed_eq
  rw [he] at hcl
  cases hcl
  exact ho

theorem Act.Closes.servers {db : Db} {a : Act} {server : Server} {o : EnrollmentOffer} {outcome : OfferOutcome}
    (hc : a.Closes server o outcome) : (a.apply db).servers = db.servers := by
  simp [Act.apply, hc.set_eq]

/-- what a failed call leaves: nothing, or one elapsed offer expired -/
inductive Failed (env : Env) (db : Db) : Db → List (Visible Db Effect) → Prop where
  | quiet (ks : List Effect) : Failed env db db (ks.map .emit)
  | expired (a : Act) (server : Server) (o : EnrollmentOffer) (hv : a.Valid db) (hc : a.Closes server o .expired)
      (hd : o.expiresAt ≤ env.clock 0) : Failed env db (a.apply db) [.commit (a.apply db)]

/-! ## Helpers -/

section Helpers

variable {ε α : Type} {env : Env} {x : Snap Db Effect} {err : ε → Db → List (Visible Db Effect) → Prop}

theorem newId_sat {ok : ℕ → Snap Db Effect → Prop}
    (h : ok x.view.nextId { x with view := { x.view with nextId := x.view.nextId + 1 } }) :
    Sat (newId : Action ε ℕ) env x ok err :=
  Sat.modifyGet h

variable [FromAppError ε]

theorem statement_sat {f : Db → Option (α × Db)} {ok : α → Snap Db Effect → Prop}
    (h : ∀ a v, f x.view = some (a, v) → ok a { x with view := v }) (herr : ∀ e, err e x.committed x.trace) :
    Sat (statement f) env x ok err :=
  Sat.stmt h (herr _)

theorem select_sat {f : Db → α} {ok : α → Snap Db Effect → Prop} (h : ok (f x.view) x)
    (herr : ∀ e, err e x.committed x.trace) : Sat (select f) env x ok err :=
  Sat.query h (herr _)

theorem commit_sat {ok : Unit → Snap Db Effect → Prop}
    (h : ok () { x with committed := x.view, trace := x.trace ++ [.commit x.view] })
    (herr : ∀ e, err e x.committed x.trace) : Sat commit env x ok err :=
  Sat.commit h (herr _)

theorem beginWrite_sat {sid : ℕ} {ok : Unit → Snap Db Effect → Prop} (h : ok () { x with view := x.committed })
    (herr : ∀ e, err e x.committed x.trace) : Sat (beginWrite sid) env x ok err := by
  refine Sat.bind (Sat.begin ?_ (herr _))
  refine statement_sat (fun a v hv => ?_) herr
  cases hv
  exact h

/-- the view after an event -/
def Db.logged (db : Db) (e : AuthorityEvent) : Db :=
  { db with events := db.events ++ [e], nextId := db.nextId + 1 }

theorem insertEvent_sat {input : EventInput} {ok : Unit → Snap Db Effect → Prop}
    (h : ∀ t, ok () { x with view := x.view.logged (input.row x.view.nextId t), reads := x.reads + 1 })
    (herr : ∀ e, err e x.committed x.trace) : Sat (insertEvent input) env x ok err := by
  refine Sat.bind (newId_sat ?_)
  refine Sat.bind (Sat.now ?_)
  refine statement_sat (fun a v hv => ?_) herr
  simp only [Db.insertEvent] at hv
  split_ifs at hv
  cases hv
  exact h _

variable (A : Argon2)

theorem hashPassword_sat {password : String} {ok : String → Snap Db Effect → Prop}
    (h : ∀ salt hash, A.hashPassword salt password = some hash → ok hash x) (herr : ∀ e, err e x.committed x.trace) :
    Sat (hashPassword A password) env x ok err :=
  Sat.bind (Sat.draw fun salt => Sat.orThrow (fun hash hh => h salt hash hh) (herr _))

theorem verifyPassword_sat {password hash : String} {ok : Bool → Snap Db Effect → Prop}
    (h : ∀ b, A.verifyPassword password hash = some b → ok b x) (herr : ∀ e, err e x.committed x.trace) :
    Sat (verifyPassword A password hash) env x ok err :=
  Sat.orThrow h (herr _)

/-- an offer just prepared for `sid` -/
structure Prepared (sid id : ℕ) (o : EnrollmentOffer) : Prop where
  isOpen : o.outcome = none
  check : o.check = true
  target : o.targetServerId = sid
  id_eq : o.id = id

theorem prepareOffer_sat {sid : ℕ} {actor : Actor} {ttl : OfferTtl} {ok : PreparedOffer → Snap Db Effect → Prop}
    (h : ∀ p : PreparedOffer, Prepared sid x.view.nextId p.model →
      ok p { x with view := { x.view with nextId := x.view.nextId + 1 }, reads := x.reads + 1 })
    (herr : ∀ e, err e x.committed x.trace) : Sat (prepareOffer A sid actor ttl) env x ok err := by
  refine Sat.bind (Sat.now ?_)
  refine Sat.bind (Sat.draw fun plaintext => ?_)
  refine Sat.bind (Sat.lift (fun code _ => ?_) fun _ => herr _)
  refine Sat.bind (hashPassword_sat A (fun salt hash _ => ?_) herr)
  refine Sat.bind (newId_sat ?_)
  exact Sat.pure (h _ ⟨rfl, rfl, rfl, rfl⟩)

theorem insertPreparedOffer_sat {p : PreparedOffer} {ok : IssuedOffer → Snap Db Effect → Prop}
    (h : ∀ issued : IssuedOffer, issued.id = p.model.id → x.view.outstandingFree p.model = true →
      ok issued { x with view := { x.view with offers := x.view.offers ++ [p.model] } })
    (herr : ∀ e, err e x.committed x.trace) : Sat (insertPreparedOffer p) env x ok err := by
  refine Sat.bind (statement_sat (fun row v hv => ?_) herr)
  simp only [Db.insertOffer] at hv
  split_ifs at hv with hc
  cases hv
  simp only [Bool.and_eq_true] at hc
  exact Sat.pure (h _ rfl hc.2)

/-- the view after an offer is minted -/
def Db.withOffer (db : Db) (o : EnrollmentOffer) : Db :=
  { db with offers := db.offers ++ [o], nextId := db.nextId + 1 }

theorem mintOffer_sat {sid : ℕ} {actor : Actor} {ttl : OfferTtl} {ok : IssuedOffer → Snap Db Effect → Prop}
    (h : ∀ (issued : IssuedOffer) (o : EnrollmentOffer), issued.id = o.id → Prepared sid x.view.nextId o →
      x.view.outstandingFree o = true → ok issued { x with view := x.view.withOffer o, reads := x.reads + 1 })
    (herr : ∀ e, err e x.committed x.trace) : Sat (mintOffer A sid actor ttl) env x ok err := by
  refine Sat.bind (prepareOffer_sat A (fun p hp => ?_) herr)
  exact insertPreparedOffer_sat (fun issued hid hfree => h issued p.model hid hp hfree) herr

theorem firstVerified_sat {code : String} (l : List EnrollmentOffer) {ok : Option EnrollmentOffer → Snap Db Effect → Prop}
    (h : ∀ r, (∀ o, r = some o → o ∈ l) → ok r x) (herr : ∀ e, err e x.committed x.trace) :
    Sat (firstVerified A code l) env x ok err := by
  induction l with
  | nil => exact Sat.pure (h none nofun)
  | cons candidate rest ih =>
    refine Sat.bind (verifyPassword_sat A (fun b _ => ?_) herr)
    cases b with
    | true => exact Sat.pure (h (some candidate) (by simp))
    | false => exact ih fun r hr => h r fun o ho => List.mem_cons_of_mem _ (hr o ho)

theorem findOfferForCode_sat {code : EnrollmentCode} {ok : Option EnrollmentOffer → Snap Db Effect → Prop}
    (h : ∀ r, (∀ o, r = some o → o ∈ x.committed.offers) → ok r x) (herr : ∀ e, err e x.committed x.trace) :
    Sat (findOfferForCode A code) env x ok err :=
  Sat.bind (Sat.queryCommitted
    (firstVerified_sat A _ (fun r hr => h r fun o ho => (List.mem_filter.1 (hr o ho)).1) herr) (herr _))

/-! ### Acts of the operations -/

/-- an open offer of a server -/
structure OpenAt (db : Db) (server : Server) (o : EnrollmentOffer) : Prop where
  server_mem : server ∈ db.servers
  offer_mem : o ∈ db.offers
  isOpen : o.outcome = none
  target : o.targetServerId = server.id

/-- one offer closed without a successor, the status going from `authorityStatus server` to that of the new row -/
theorem Act.valid_close {db : Db} {server : Server} {o : EnrollmentOffer} (inv : Inv db) (ho : OpenAt db server o)
    {oc : OfferOutcome} (hoc : oc ≠ .replaced) (now : ℤ) (set : Server → Server) (hset : ∀ s, (set s).id = s.id)
    (actor : Actor) (source : String) {after : AuthorityStatus} (hafter : after = authorityStatus (set server))
    (id : ℕ) (t : ℤ) (mode : Option ReenrollmentMode) :
    Act.Valid ⟨server, set, some ⟨o, oc, now, none⟩, none, EventInput.row ⟨server, actor, source, some o.id,
      oc.transition, mode, some oc, authorityStatus server, after⟩ id t, db.nextId + 1⟩ db := by
  refine { server_mem := ho.server_mem, set_id := hset, closes := ?_, keeps := by simp, mints := by simp,
           event_server := rfl, before := rfl, after := hafter, event_offer := ?_, next := Nat.le_succ _ }
  · rintro c ⟨⟩
    exact ⟨ho.offer_mem, ho.isOpen, ho.target, by simp [hoc], rfl, rfl, rfl⟩
  · intro i hi
    cases hi
    exact (inv.offer_fresh o ho.offer_mem).trans (Nat.lt_succ_self _)

theorem updateOffer_sat {o : EnrollmentOffer} {oc : OfferOutcome} {now : ℤ} {succ : Option ℕ}
    (hfind : x.view.findOffer o.id = some o) {ok : Unit → Snap Db Effect → Prop}
    (h : ok () { x with view := { x.view with offers := closeRows x.view.offers (some ⟨o, oc, now, succ⟩) } })
    (herr : ∀ e, err e x.committed x.trace) : Sat (statement (Db.updateOffer o.id oc now succ)) env x ok err := by
  refine statement_sat (fun a v hv => ?_) herr
  simp only [Db.updateOffer, hfind] at hv
  split_ifs at hv
  cases hv
  exact h

theorem OpenAt.find {db : Db} {server : Server} {o : EnrollmentOffer} (ho : OpenAt db server o) (inv : Inv db) :
    db.findOffer o.id = some o :=
  find_of_nodup (fun o : EnrollmentOffer => o.id) inv.offer_nodup ho.offer_mem

theorem terminalizeOffer_sat {server : Server} {o : EnrollmentOffer} {oc : OfferOutcome} {actor : Actor}
    {source : String} (inv : Inv x.view) (ho : OpenAt x.view server o) (hoc : oc ≠ .replaced)
    {ok : Unit → Snap Db Effect → Prop}
    (h : ∀ a : Act, a.Valid x.view → a.Closes server o oc →
      ok () { x with view := a.apply x.view, reads := x.reads + 2 })
    (herr : ∀ e, err e x.committed x.trace) :
    Sat (terminalizeOffer o oc none server actor source (authorityStatus server) (authorityStatus server)) env x ok
      err := by
  refine Sat.bind (Sat.now ?_)
  refine Sat.bind (updateOffer_sat ?_ ?_ herr)
  · exact ho.find inv
  refine insertEvent_sat (fun t => ?_) herr
  have key := h _ (Act.valid_close inv ho hoc (env.clock x.reads) id (fun _ => rfl) actor source rfl x.view.nextId t none)
    ⟨rfl, rfl, rfl, _, rfl⟩
  simpa [Act.apply, closeRows, Db.logged] using key

/-- an elapsed open offer of the server has been materialised as expired, or nothing has changed -/
inductive Expires (server : Server) (db : Db) : Db → Prop where
  | no : Expires server db db
  | yes (a : Act) (o : EnrollmentOffer) (hv : a.Valid db) (hc : a.Closes server o .expired) :
      Expires server db (a.apply db)

theorem Expires.commits {server : Server} {db db' : Db} (he : Expires server db db') (h : Inv db) :
    Commits db db' (tokenOf db) := by
  cases he with
  | no => exact .refl db
  | yes a o hv hc => exact hc.commits h hv (by decide)

theorem Expires.servers {server : Server} {db db' : Db} (he : Expires server db db') : db'.servers = db.servers := by
  cases he with
  | no => rfl
  | yes a o hv hc => exact hc.servers

theorem openAt_of_find {db : Db} {server : Server} (hs : server ∈ db.servers) {o : EnrollmentOffer}
    (ho : db.offers.find? (fun p => p.targetServerId == server.id && p.isOpen) = some o) : OpenAt db server o := by
  have hp := List.find?_some ho
  simp only [Bool.and_eq_true, beq_iff_eq, EnrollmentOffer.isOpen, Option.isNone_iff_eq_none] at hp
  exact ⟨hs, List.mem_of_find?_eq_some ho, hp.2, hp.1⟩

theorem expireElapsedOutstanding_sat {server : Server} {actor : Actor} {source : String} (inv : Inv x.view)
    (hs : server ∈ x.view.servers) {ok : Unit → Snap Db Effect → Prop}
    (h : ∀ v r, Expires server x.view v → ok () { x with view := v, reads := r })
    (herr : ∀ e, err e x.committed x.trace) : Sat (expireElapsedOutstanding server actor source) env x ok err := by
  refine Sat.bind (select_sat ?_ herr)
  cases hf : x.view.offers.find? (fun p => p.targetServerId == server.id && p.isOpen) with
  | none => exact Sat.pure (h x.view x.reads .no)
  | some o =>
    refine Sat.bind (Sat.now ?_)
    show Sat (if env.clock x.reads < o.expiresAt then _ else _) _ _ _ _
    split_ifs
    · exact Sat.pure (h _ _ .no)
    · exact terminalizeOffer_sat (x := { x with reads := x.reads + 1 }) inv (openAt_of_find hs hf) (by decide)
        (fun a hv hc => h _ _ (.yes a o hv hc)) herr

/-- the view after one server row is updated -/
def Db.setServer (db : Db) (sid : ℕ) (set : Server → Server) : Db :=
  { db with servers := db.servers.map fun s => if s.id == sid then set s else s }

theorem Db.setServer_id (db : Db) (sid : ℕ) : db.setServer sid id = db := by simp [Db.setServer]

theorem updateServer_sat {sid : ℕ} {set : Server → Server} {ok : Unit → Snap Db Effect → Prop}
    (h : ok () { x with view := x.view.setServer sid set }) (herr : ∀ e, err e x.committed x.trace) :
    Sat (statement (Db.updateServer sid set)) env x ok err := by
  refine statement_sat (fun a v hv => ?_) herr
  simp only [Db.updateServer] at hv
  split_ifs at hv
  cases hv
  exact h

/-- the row that `clearToken` writes -/
def Server.cleared (now : ℤ) (s : Server) : Server :=
  { s with tokenHash := none, tokenPrefix := none, updatedAt := now }

theorem clearToken_sat {sid : ℕ} {ok : Unit → Snap Db Effect → Prop}
    (h : ∀ now, ok () { x with view := x.view.setServer sid (Server.cleared now), reads := x.reads + 1 })
    (herr : ∀ e, err e x.committed x.trace) : Sat (clearToken sid) env x ok err :=
  Sat.bind (Sat.now (updateServer_sat (h _) herr))

/-- the index let a fresh offer in: whatever was open for its server has just been closed -/
theorem closed_of_free {db : Db} (inv : Inv db) {closed : Option Closing} {o : EnrollmentOffer} {sid id : ℕ}
    (ho : Prepared sid id o) (hid : db.nextId ≤ id) {v : Db} (hv : v.offers = closeRows db.offers closed)
    (hfree : v.outstandingFree o = true) :
    ∀ p ∈ db.offers, p.outcome = none → p.targetServerId = sid → ∃ c, closed = some c ∧ c.offer.id = p.id := by
  intro p hp hopen ht
  by_contra hne
  have hkept : p ∈ v.offers := by
    rw [hv]
    cases closed with
    | none => exact hp
    | some c =>
      have hc : p.id ≠ c.offer.id := fun e => hne ⟨c, rfl, e.symm⟩
      exact List.mem_map.2 ⟨p, hp, by simp [hc]⟩
  have hlt := inv.offer_fresh p hp
  have hidne : p.id ≠ o.id := by rw [ho.id_eq]; omega
  simp only [Db.outstandingFree, EnrollmentOffer.isOpen, ho.isOpen, ho.target, Option.isNone_none, Bool.not_true,
    Bool.false_or, List.all_eq_true] at hfree
  have := hfree p hkept
  simp [hidne, hopen, ht] at this

/-- one offer minted; nothing closed, or one offer replaced by it -/
theorem Act.valid_mint {db : Db} {server : Server} (inv : Inv db) (hs : server ∈ db.servers) {o : EnrollmentOffer}
    {id : ℕ} (ho : Prepared server.id id o) (hid : db.nextId ≤ id) {set : Server → Server}
    (hset : ∀ s, (set s).id = s.id) {v : Db} (hv : v.offers = db.offers) (hfree : v.outstandingFree o = true)
    (actor : Actor) (source : String) {tr : AuthorityTransition} (htr : tr.isTerminal = false)
    (mode : Option ReenrollmentMode) {before after : AuthorityStatus} (hbefore : before = authorityStatus server)
    (hafter : after = authorityStatus (set server)) (eid : ℕ) (t : ℤ) :
    Act.Valid ⟨server, set, none, some o, EventInput.row ⟨server, actor, source, some o.id, tr, mode, none, before,
      after⟩ eid t, id + 2⟩ db := by
  refine { server_mem := hs, set_id := hset, closes := by simp, keeps := fun _ => ⟨rfl, htr⟩, mints := ?_,
           event_server := rfl, before := hbefore, after := hafter, event_offer := ?_,
           next := hid.trans (Nat.le_add_right _ _) }
  · rintro n ⟨⟩
    refine ⟨ho.isOpen, ho.check, ho.target, ho.id_eq ▸ hid, ?_, closed_of_free inv ho hid hv hfree⟩
    show o.id < id + 2
    rw [ho.id_eq]; omega
  · intro i hi
    cases hi
    show o.id < id + 2
    rw [ho.id_eq]; omega

/-- one offer replaced by a fresh one -/
theorem Act.valid_replace {db : Db} {server : Server} {o p : EnrollmentOffer} (inv : Inv db) (ho : OpenAt db server o)
    (hp : Prepared server.id db.nextId p) (now : ℤ) {v : Db}
    (hv : v.offers = closeRows db.offers (some ⟨o, .replaced, now, some p.id⟩)) (hfree : v.outstandingFree p = true)
    (actor : Actor) (source : String) (eid : ℕ) (t : ℤ) :
    Act.Valid ⟨server, id, some ⟨o, .replaced, now, some p.id⟩, some p, EventInput.row ⟨server, actor, source,
      some o.id, .offerReplaced, none, some .replaced, authorityStatus server, authorityStatus server⟩ eid t,
      db.nextId + 2⟩ db := by
  have hlt := inv.offer_fresh o ho.offer_mem
  refine { server_mem := ho.server_mem, set_id := fun _ => rfl, closes := ?_, keeps := by simp, mints := ?_,
           event_server := rfl, before := rfl, after := rfl, event_offer := ?_, next := Nat.le_add_right _ _ }
  · rintro c ⟨⟩
    exact ⟨ho.offer_mem, ho.isOpen, ho.target, by simp, rfl, rfl, rfl⟩
  · rintro n ⟨⟩
    refine ⟨hp.isOpen, hp.check, hp.target, hp.id_eq ▸ Nat.le_refl _, ?_,
      closed_of_free inv hp (Nat.le_refl _) hv hfree⟩
    show p.id < db.nextId + 2
    rw [hp.id_eq]; omega
  · intro i hi
    cases hi
    show o.id < db.nextId + 2
    omega

/-- a claimed server loses its token, no offer being touched -/
theorem Act.valid_clear {db : Db} {server : Server} (hs : server ∈ db.servers)
    (hst : authorityStatus server = .claimed) (now : ℤ) (actor : Actor) (source : String) (eid : ℕ) (t : ℤ) :
    Act.Valid ⟨server, Server.cleared now, none, none, EventInput.row ⟨server, actor, source, none,
      .authorityRevoked, none, none, .claimed, .unclaimed⟩ eid t, db.nextId + 1⟩ db :=
  { server_mem := hs, set_id := fun _ => rfl, closes := by simp, keeps := fun _ => ⟨rfl, rfl⟩, mints := by simp,
    event_server := rfl, before := hst.symm, after := rfl, event_offer := fun _ => nofun,
    next := Nat.le_succ _ }

/-- an offer minted and its event recorded, after the server row was updated by `set` -/
theorem mintLogged_sat (A : Argon2) {α : Type} {server : Server} {v : Db} (inv : Inv v) (hs : server ∈ v.servers)
    (set : Server → Server) (hset : ∀ s, (set s).id = s.id) (hx : x.view = v.setServer server.id set)
    {actor : Actor} {source : String} {ttl : OfferTtl} {tr : AuthorityTransition} (htr : tr.isTerminal = false)
    {mode : Option ReenrollmentMode} {before after : AuthorityStatus} (hbefore : before = authorityStatus server)
    (hafter : after = authorityStatus (set server)) {k : IssuedOffer → Action ε α} {ok : α → Snap Db Effect → Prop}
    (h : ∀ (issued : IssuedOffer) (a : Act), a.Valid v → a.server = server → a.set = set → a.closed = none →
      Sat (k issued) env { x with view := a.apply v, reads := x.reads + 2 } ok err)
    (herr : ∀ e, err e x.committed x.trace) :
    Sat (do
      let issued ← mintOffer A server.id actor ttl
      insertEvent ⟨server, actor, source, some issued.id, tr, mode, none, before, after⟩
      k issued) env x ok err := by
  obtain ⟨committed, view, reads, trace⟩ := x
  subst hx
  refine Sat.bind (mintOffer_sat A (fun issued o hid ho hfree => ?_) herr)
  refine Sat.bind (insertEvent_sat (fun t => ?_) herr)
  have key := h issued _ (Act.valid_mint inv hs ho (Nat.le_refl _) hset rfl hfree actor source htr mode hbefore
    hafter (v.nextId + 1) t) rfl rfl rfl
  rw [hid]
  exact key

end Helpers

end ServerBee.Authority
