/-
The lifecycle as a transition system over the three tables: what one recorded step of a server's authority may do.

An `Act` is one authority event together with the row changes that go with it: at most one offer closed, at most one
minted, the server row updated. `Act.Valid` says when the tables admit it. `Move` adds the appearance of a server and
its deletion. The operations are shown elsewhere to commit sequences of moves; everything that holds of every reachable
state is shown here, once for each kind of move (`Move.inv`).

The invariant `Inv` has three parts: rows are well formed and fresh identifiers are fresh; no server has two open
offers; and the event log replays to the current status (`Replays`) and has exactly one terminal event for each closed
offer (`terminalEvents`).
-/
import ServerBee.Authority.Operations

namespace ServerBee.Authority

/-! ## Moves -/

/-- how an act closes an offer -/
structure Closing where
  offer : EnrollmentOffer
  outcome : OfferOutcome
  terminalAt : ℤ
  successor : Option ℕ

structure Act where
  server : Server
  set : Server → Server
  closed : Option Closing
  minted : Option EnrollmentOffer
  event : AuthorityEvent
  nextId : ℕ

def closeRows (offers : List EnrollmentOffer) : Option Closing → List EnrollmentOffer
  | none => offers
  | some c => offers.map fun p => if p.id == c.offer.id then p.close c.outcome c.terminalAt c.successor else p

def Act.apply (a : Act) (db : Db) : Db where
  servers := db.servers.map fun s => if s.id == a.server.id then a.set s else s
  offers := closeRows db.offers a.closed ++ a.minted.toList
  events := db.events ++ [a.event]
  nextId := a.nextId

/-- the transitions that end an offer -/
def AuthorityTransition.isTerminal : AuthorityTransition → Bool
  | .offerConsumed | .offerRevoked | .offerReplaced | .offerExpired => true
  | _ => false

structure Act.Valid (a : Act) (db : Db) : Prop where
  server_mem : a.server ∈ db.servers
  set_id : ∀ s, (a.set s).id = s.id
  closes : ∀ c, a.closed = some c → c.offer ∈ db.offers ∧ c.offer.outcome = none ∧
    c.offer.targetServerId = a.server.id ∧ (c.outcome = .replaced ↔ c.successor.isSome) ∧
    a.event.offerId = some c.offer.id ∧ a.event.transition = c.outcome.transition ∧
    a.event.offerOutcome = some c.outcome
  keeps : a.closed = none → a.event.offerOutcome = none ∧ a.event.transition.isTerminal = false
  mints : ∀ n, a.minted = some n → n.outcome = none ∧ n.check = true ∧ n.targetServerId = a.server.id ∧
    db.nextId ≤ n.id ∧ n.id < a.nextId ∧
    ∀ p ∈ db.offers, p.outcome = none → p.targetServerId = a.server.id → ∃ c, a.closed = some c ∧ c.offer.id = p.id
  event_server : a.event.serverId = a.server.id
  before : a.event.authorityBefore = authorityStatus a.server
  after : a.event.authorityAfter = authorityStatus (a.set a.server)
  event_offer : ∀ o, a.event.offerId = some o → o < a.nextId
  next : db.nextId ≤ a.nextId

/-- the event that goes with a deleted row -/
def DeletionEvent (r : Server) (e : AuthorityEvent) : Prop :=
  e.serverId = r.id ∧ e.authorityBefore = authorityStatus r ∧ e.authorityAfter = .unclaimed ∧ e.offerId = none

inductive Move : Db → Db → Prop where
  | onboard (db : Db) (row : Server) (nextId : ℕ) (hid : row.id = db.nextId) (hn : db.nextId < nextId)
      (ht : row.tokenHash = none) :
      Move db { db with servers := db.servers ++ [row], nextId := nextId }
  | act (db : Db) (a : Act) (h : a.Valid db) : Move db (a.apply db)
  | delete (db : Db) (rows : List Server) (events : List AuthorityEvent) (nextId : ℕ)
      (hrows : ∀ r ∈ rows, r ∈ db.servers) (hnd : (rows.map (·.id)).Nodup) (hn : db.nextId ≤ nextId)
      (hev : List.Forall₂ DeletionEvent rows events) :
      Move db {
        servers := db.servers.filter fun s => !(rows.map (·.id)).contains s.id
        offers := db.offers.filter fun o => !(rows.map (·.id)).contains o.targetServerId
        events := db.events ++ events
        nextId := nextId }

/-- any number of moves -/
inductive Moves : Db → Db → Prop where
  | refl (db : Db) : Moves db db
  | tail {db db' db'' : Db} : Moves db db' → Move db' db'' → Moves db db''

theorem Moves.single {db db' : Db} (h : Move db db') : Moves db db' := .tail (.refl db) h

theorem Moves.trans {db db' db'' : Db} (h1 : Moves db db') (h2 : Moves db' db'') : Moves db db'' := by
  induction h2 with
  | refl => exact h1
  | tail _ hm ih => exact .tail ih hm

/-! ## The invariant -/

/-- the authority status of a server id: Unclaimed once the server is gone -/
def statusOf (db : Db) (sid : ℕ) : AuthorityStatus :=
  match db.findServer sid with
  | some s => authorityStatus s
  | none => .unclaimed

/-- the events of one server, in insertion order -/
def history (db : Db) (sid : ℕ) : List AuthorityEvent := db.events.filter fun e => e.serverId == sid

/-- the log leads from status `b` to status `a`, each event starting where its predecessor ended -/
def Replays (b : AuthorityStatus) : List AuthorityEvent → AuthorityStatus → Prop
  | [], a => b = a
  | e :: es, a => e.authorityBefore = b ∧ Replays e.authorityAfter es a

theorem Replays.snoc {b a : AuthorityStatus} {es : List AuthorityEvent} {e : AuthorityEvent} (h : Replays b es a)
    (he : e.authorityBefore = a) : Replays b (es ++ [e]) e.authorityAfter := by
  induction es generalizing b with
  | nil => exact ⟨he.trans h.symm, rfl⟩
  | cons x xs ih => exact ⟨h.1, ih h.2⟩

def isTerminalEvent (o : ℕ) (e : AuthorityEvent) : Bool :=
  e.offerId == some o && (e.offerOutcome.isSome || e.transition.isTerminal)

/-- the events that end offer `o` -/
def terminalEvents (db : Db) (o : ℕ) : List AuthorityEvent := db.events.filter (isTerminalEvent o)

/-- the log of one offer agrees with its outcome column -/
def LoggedOnce (db : Db) (o : EnrollmentOffer) : Prop :=
  match o.outcome with
  | none => terminalEvents db o.id = []
  | some oc => ∃ e, terminalEvents db o.id = [e] ∧ e.transition = oc.transition ∧ e.offerOutcome = some oc

structure Inv (db : Db) : Prop where
  server_nodup : (db.servers.map (·.id)).Nodup
  server_fresh : ∀ s ∈ db.servers, s.id < db.nextId
  offer_nodup : (db.offers.map (·.id)).Nodup
  offer_fresh : ∀ o ∈ db.offers, o.id < db.nextId
  offer_target : ∀ o ∈ db.offers, ∃ s ∈ db.servers, s.id = o.targetServerId
  offer_check : ∀ o ∈ db.offers, o.check = true
  one_open : ∀ o ∈ db.offers, ∀ p ∈ db.offers, o.outcome = none → p.outcome = none →
    o.targetServerId = p.targetServerId → o.id = p.id
  event_fresh : ∀ e ∈ db.events, e.serverId < db.nextId ∧ ∀ o, e.offerId = some o → o < db.nextId
  replay : ∀ sid, Replays .unclaimed (history db sid) (statusOf db sid)
  logged : ∀ o ∈ db.offers, LoggedOnce db o

theorem inv_empty : Inv Db.empty := by
  constructor <;> simp [Db.empty, history, statusOf, Db.findServer, Replays]

/-! ### Lookup -/

theorem find_of_nodup {α : Type} (key : α → ℕ) {l : List α} (hnd : (l.map key).Nodup) {x : α} (hx : x ∈ l) :
    l.find? (fun y => key y == key x) = some x := by
  induction l with
  | nil => simp at hx
  | cons y ys ih =>
    rw [List.map_cons, List.nodup_cons] at hnd
    rcases List.mem_cons.1 hx with rfl | hx
    · simp
    · have hne : key y ≠ key x := fun h => hnd.1 (h ▸ List.mem_map_of_mem hx)
      rw [List.find?_cons_of_neg (by simpa using hne)]
      exact ih hnd.2 hx

theorem findServer_mem {db : Db} {sid : ℕ} {s : Server} (h : db.findServer sid = some s) :
    s ∈ db.servers ∧ s.id = sid :=
  ⟨List.mem_of_find?_eq_some h, by simpa using List.find?_some h⟩

theorem findOffer_mem {db : Db} {id : ℕ} {o : EnrollmentOffer} (h : db.findOffer id = some o) :
    o ∈ db.offers ∧ o.id = id :=
  ⟨List.mem_of_find?_eq_some h, by simpa using List.find?_some h⟩

theorem Inv.findServer {db : Db} (h : Inv db) {s : Server} (hs : s ∈ db.servers) : db.findServer s.id = some s :=
  find_of_nodup (fun s : Server => s.id) h.server_nodup hs

theorem Inv.statusOf_mem {db : Db} (h : Inv db) {s : Server} (hs : s ∈ db.servers) :
    statusOf db s.id = authorityStatus s := by
  simp [statusOf, h.findServer hs]

theorem findServer_none {db : Db} {sid : ℕ} (h : ∀ s ∈ db.servers, s.id ≠ sid) : db.findServer sid = none := by
  simpa [Db.findServer] using h

theorem Inv.offer_eq {db : Db} (h : Inv db) {o p : EnrollmentOffer} (ho : o ∈ db.offers) (hp : p ∈ db.offers)
    (he : o.id = p.id) : o = p :=
  List.inj_on_of_nodup_map h.offer_nodup ho hp he

/-! ### A server appears -/

theorem Move.onboard_inv {db : Db} (h : Inv db) {row : Server} {nextId : ℕ} (hid : row.id = db.nextId)
    (hn : db.nextId < nextId) (ht : row.tokenHash = none) :
    Inv { db with servers := db.servers ++ [row], nextId := nextId } := by
  have hnew : ∀ s ∈ db.servers, s.id ≠ row.id := fun s hs => by have := h.server_fresh s hs; omega
  refine { h with server_nodup := ?_, server_fresh := ?_, offer_fresh := ?_, offer_target := ?_, event_fresh := ?_,
                  replay := ?_ }
  · simp only [List.map_append, List.map_cons, List.map_nil]
    refine List.nodup_append.2 ⟨h.server_nodup, by simp, ?_⟩
    intro a ha b hb hab
    obtain ⟨s, hs, rfl⟩ := List.mem_map.1 ha
    exact hnew s hs (hab.trans (by simpa using hb))
  · intro s hs
    rcases List.mem_append.1 hs with hs | hs
    · exact (h.server_fresh s hs).trans hn
    · rw [List.mem_singleton.1 hs, hid]; exact hn
  · intro o ho; exact (h.offer_fresh o ho).trans hn
  · intro o ho
    obtain ⟨s, hs, e⟩ := h.offer_target o ho
    exact ⟨s, List.mem_append_left _ hs, e⟩
  · intro e he
    exact ⟨(h.event_fresh e he).1.trans hn, fun o ho => ((h.event_fresh e he).2 o ho).trans hn⟩
  · intro sid
    have hst : statusOf { db with servers := db.servers ++ [row], nextId := nextId } sid = statusOf db sid := by
      unfold statusOf Db.findServer
      rw [List.find?_append]
      cases hf : db.servers.find? (fun s => s.id == sid) with
      | some s => rfl
      | none =>
        by_cases he : row.id = sid
        · simp [he, authorityStatus, ht]
        · simp [he]
    rw [hst]
    exact h.replay sid

/-! ### One act -/

theorem mem_closeRows {offers : List EnrollmentOffer} {closed : Option Closing} {o : EnrollmentOffer}
    (h : o ∈ closeRows offers closed) :
    o ∈ offers ∧ (∀ c, closed = some c → o.id ≠ c.offer.id) ∨
      ∃ c, ∃ p ∈ offers, closed = some c ∧ p.id = c.offer.id ∧ o = p.close c.outcome c.terminalAt c.successor := by
  cases closed with
  | none => exact Or.inl ⟨h, by simp⟩
  | some c =>
    obtain ⟨p, hp, he⟩ := List.mem_map.1 h
    by_cases hid : p.id = c.offer.id
    · exact Or.inr ⟨c, p, hp, rfl, hid, by simpa [hid] using he.symm⟩
    · simp only [beq_iff_eq, hid, if_false] at he
      subst he
      exact Or.inl ⟨hp, by rintro c' ⟨⟩; exact hid⟩

theorem closeRows_ids (offers : List EnrollmentOffer) (closed : Option Closing) :
    (closeRows offers closed).map (·.id) = offers.map (·.id) := by
  cases closed with
  | none => rfl
  | some c =>
    simp only [closeRows, List.map_map]
    refine List.map_congr_left fun p _ => ?_
    simp only [Function.comp]
    split_ifs <;> rfl

section Act

variable {db : Db} {a : Act}

/-- a row of the new offers table is an untouched old row, the old row that was closed, or the minted row -/
theorem Act.mem_offers (h : Inv db) (hv : a.Valid db) {o : EnrollmentOffer} (ho : o ∈ (a.apply db).offers) :
    (o ∈ db.offers ∧ ∀ c, a.closed = some c → o.id ≠ c.offer.id) ∨
      (∃ c, a.closed = some c ∧ o = c.offer.close c.outcome c.terminalAt c.successor) ∨ a.minted = some o := by
  rcases List.mem_append.1 ho with ho | ho
  · rcases mem_closeRows ho with h1 | ⟨c, p, hp, hc, hid, rfl⟩
    · exact Or.inl h1
    · have : p = c.offer := h.offer_eq hp (hv.closes c hc).1 hid
      exact Or.inr (Or.inl ⟨c, hc, by rw [this]⟩)
  · exact Or.inr (Or.inr (by simpa using ho))

theorem Act.servers_ids (hv : a.Valid db) : (a.apply db).servers.map (·.id) = db.servers.map (·.id) := by
  simp only [Act.apply, List.map_map]
  refine List.map_congr_left fun s _ => ?_
  simp only [Function.comp]
  split_ifs
  · exact hv.set_id s
  · rfl

theorem Act.mem_servers (hv : a.Valid db) {s : Server} (hs : s ∈ db.servers) :
    ∃ s' ∈ (a.apply db).servers, s'.id = s.id := by
  have : s.id ∈ (a.apply db).servers.map (·.id) := by
    rw [Act.servers_ids hv]; exact List.mem_map_of_mem hs
  obtain ⟨s', hs', e⟩ := List.mem_map.1 this
  exact ⟨s', hs', e⟩

theorem Act.findServer (hv : a.Valid db) (sid : ℕ) :
    (a.apply db).findServer sid = (db.findServer sid).map fun s => if s.id == a.server.id then a.set s else s := by
  simp only [Db.findServer, Act.apply, List.find?_map]
  congr 2
  funext s
  simp only [Function.comp]
  split_ifs
  · rw [hv.set_id]
  · rfl

theorem Act.statusOf (h : Inv db) (hv : a.Valid db) (sid : ℕ) :
    statusOf (a.apply db) sid =
      if a.server.id = sid then authorityStatus (a.set a.server) else statusOf db sid := by
  by_cases hs : a.server.id = sid
  · subst hs
    simp [Authority.statusOf, Act.findServer hv, h.findServer hv.server_mem]
  · simp only [Authority.statusOf, Act.findServer hv, hs, if_false]
    cases hf : db.findServer sid with
    | none => rfl
    | some s =>
      have hne : ¬ s.id = a.server.id := fun e => hs (e.symm.trans (findServer_mem hf).2)
      simp [hne]

theorem Act.history (sid : ℕ) :
    history (a.apply db) sid = history db sid ++ (if a.event.serverId = sid then [a.event] else []) := by
  simp only [Authority.history, Act.apply, List.filter_append, List.filter_cons, List.filter_nil, beq_iff_eq]

theorem Act.terminalEvents (o : ℕ) :
    terminalEvents (a.apply db) o =
      terminalEvents db o ++ (if isTerminalEvent o a.event = true then [a.event] else []) := by
  simp only [Authority.terminalEvents, Act.apply, List.filter_append, List.filter_cons, List.filter_nil]

theorem no_terminal_of_fresh (h : Inv db) {o : ℕ} (ho : db.nextId ≤ o) : terminalEvents db o = [] := by
  refine List.filter_eq_nil_iff.2 fun e he ht => ?_
  simp only [isTerminalEvent, Bool.and_eq_true, beq_iff_eq] at ht
  have := (h.event_fresh e he).2 o ht.1
  omega

/-- only the offer that an act closes gets a terminal event -/
theorem Act.terminal_iff (hv : a.Valid db) (o : ℕ) :
    isTerminalEvent o a.event = true ↔ ∃ c, a.closed = some c ∧ c.offer.id = o := by
  cases hc : a.closed with
  | none =>
    obtain ⟨h1, h2⟩ := hv.keeps hc
    simp [isTerminalEvent, h1, h2]
  | some c =>
    obtain ⟨-, -, -, -, h1, -, h3⟩ := hv.closes c hc
    simp [isTerminalEvent, h1, h3]

theorem Act.logged (h : Inv db) (hv : a.Valid db) (o : EnrollmentOffer) (ho : o ∈ (a.apply db).offers) :
    LoggedOnce (a.apply db) o := by
  unfold LoggedOnce
  rw [Act.terminalEvents]
  rcases Act.mem_offers h hv ho with ⟨hold, hne⟩ | ⟨c, hc, rfl⟩ | hm
  · have hno : ¬ isTerminalEvent o.id a.event = true := by
      rw [Act.terminal_iff hv]
      rintro ⟨c, hc, e⟩
      exact hne c hc e.symm
    rw [if_neg hno, List.append_nil]
    exact h.logged o hold
  · obtain ⟨hmem, hopen, -, -, -, h2, h3⟩ := hv.closes c hc
    have hyes : isTerminalEvent c.offer.id a.event = true := (Act.terminal_iff hv _).2 ⟨c, hc, rfl⟩
    have hold := h.logged c.offer hmem
    unfold LoggedOnce at hold
    rw [hopen] at hold
    refine ⟨a.event, ?_, h2, h3⟩
    show Authority.terminalEvents db c.offer.id ++ _ = _
    rw [hold, List.nil_append, EnrollmentOffer.close, if_pos hyes]
  · obtain ⟨hopen, -, -, hf, -, -⟩ := hv.mints o hm
    have hno : ¬ isTerminalEvent o.id a.event = true := by
      rw [Act.terminal_iff hv]
      rintro ⟨c, hc, e⟩
      have := h.offer_fresh c.offer (hv.closes c hc).1
      omega
    rw [hopen, if_neg hno, no_terminal_of_fresh h hf]
    rfl

theorem close_check {o : EnrollmentOffer} {oc : OfferOutcome} {t : ℤ} {succ : Option ℕ}
    (h : oc = .replaced ↔ succ.isSome) : (o.close oc t succ).check = true := by
  cases oc <;> cases succ <;> simp_all [EnrollmentOffer.close, EnrollmentOffer.check]

theorem Act.one_open (h : Inv db) (hv : a.Valid db) : ∀ o ∈ (a.apply db).offers, ∀ p ∈ (a.apply db).offers,
    o.outcome = none → p.outcome = none → o.targetServerId = p.targetServerId → o.id = p.id := by
  -- an open old row that survives was not the one closed, so minting for its server is not valid
  have hmint : ∀ n, a.minted = some n → ∀ p ∈ db.offers, (∀ c, a.closed = some c → p.id ≠ c.offer.id) →
      p.outcome = none → p.targetServerId ≠ n.targetServerId := by
    intro n hn p hp hne hopen ht
    obtain ⟨-, -, htn, -, -, hfree⟩ := hv.mints n hn
    obtain ⟨c, hc, e⟩ := hfree p hp hopen (ht.trans htn)
    exact hne c hc e.symm
  intro o ho p hp hoo hpo ht
  rcases Act.mem_offers h hv ho with ⟨ho1, ho2⟩ | ⟨c, hc, rfl⟩ | hom
  · rcases Act.mem_offers h hv hp with ⟨hp1, -⟩ | ⟨c, hc, rfl⟩ | hpm
    · exact h.one_open o ho1 p hp1 hoo hpo ht
    · simp [EnrollmentOffer.close] at hpo
    · exact absurd ht (hmint p hpm o ho1 ho2 hoo)
  · simp [EnrollmentOffer.close] at hoo
  · rcases Act.mem_offers h hv hp with ⟨hp1, hp2⟩ | ⟨c, hc, rfl⟩ | hpm
    · exact absurd ht.symm (hmint o hom p hp1 hp2 hpo)
    · simp [EnrollmentOffer.close] at hpo
    · rw [hom] at hpm; cases hpm; rfl

theorem Act.inv (h : Inv db) (hv : a.Valid db) : Inv (a.apply db) := by
  constructor
  · rw [Act.servers_ids hv]; exact h.server_nodup
  · intro s hs
    have : s.id ∈ (a.apply db).servers.map (·.id) := List.mem_map_of_mem hs
    rw [Act.servers_ids hv] at this
    obtain ⟨s0, hs0, e⟩ := List.mem_map.1 this
    exact e ▸ lt_of_lt_of_le (h.server_fresh s0 hs0) hv.next
  · simp only [Act.apply, List.map_append, closeRows_ids]
    cases hm : a.minted with
    | none => simpa using h.offer_nodup
    | some n =>
      refine List.nodup_append.2 ⟨h.offer_nodup, by simp, ?_⟩
      intro i hi j hj hij
      obtain ⟨o, ho, rfl⟩ := List.mem_map.1 hi
      obtain ⟨-, -, -, hf, -, -⟩ := hv.mints n hm
      have := h.offer_fresh o ho
      simp only [Option.toList_some, List.map_cons, List.map_nil, List.mem_singleton] at hj
      omega
  · intro o ho
    rcases Act.mem_offers h hv ho with ⟨h1, -⟩ | ⟨c, hc, rfl⟩ | hm
    · exact lt_of_lt_of_le (h.offer_fresh o h1) hv.next
    · exact lt_of_lt_of_le (h.offer_fresh c.offer (hv.closes c hc).1) hv.next
    · obtain ⟨-, -, -, -, hlt, -⟩ := hv.mints o hm
      exact hlt
  · intro o ho
    rcases Act.mem_offers h hv ho with ⟨h1, -⟩ | ⟨c, hc, rfl⟩ | hm
    · obtain ⟨s, hs, e⟩ := h.offer_target o h1
      obtain ⟨s', hs', e'⟩ := Act.mem_servers hv hs
      exact ⟨s', hs', e'.trans e⟩
    · obtain ⟨s', hs', e'⟩ := Act.mem_servers hv hv.server_mem
      obtain ⟨-, -, ht, -⟩ := hv.closes c hc
      exact ⟨s', hs', e'.trans ht.symm⟩
    · obtain ⟨s', hs', e'⟩ := Act.mem_servers hv hv.server_mem
      obtain ⟨-, -, ht, -⟩ := hv.mints o hm
      exact ⟨s', hs', e'.trans ht.symm⟩
  · intro o ho
    rcases Act.mem_offers h hv ho with ⟨h1, -⟩ | ⟨c, hc, rfl⟩ | hm
    · exact h.offer_check o h1
    · obtain ⟨-, -, -, hr, -⟩ := hv.closes c hc
      exact close_check hr
    · exact (hv.mints o hm).2.1
  · exact Act.one_open h hv
  · intro e he
    rcases List.mem_append.1 he with he | he
    · exact ⟨lt_of_lt_of_le (h.event_fresh e he).1 hv.next,
        fun o ho => lt_of_lt_of_le ((h.event_fresh e he).2 o ho) hv.next⟩
    · rw [List.mem_singleton.1 he]
      refine ⟨?_, hv.event_offer⟩
      rw [hv.event_server]
      exact lt_of_lt_of_le (h.server_fresh _ hv.server_mem) hv.next
  · intro sid
    rw [Act.history, Act.statusOf h hv, hv.event_server]
    split_ifs with hs
    · rw [← hv.after]
      refine (h.replay sid).snoc ?_
      rw [hv.before, ← hs, h.statusOf_mem hv.server_mem]
    · simpa using h.replay sid
  · exact Act.logged h hv

end Act

/-! ### A deletion -/

theorem deleted_history {rows : List Server} {events : List AuthorityEvent}
    (hev : List.Forall₂ DeletionEvent rows events)
    (hnd : (rows.map (·.id)).Nodup) (sid : ℕ) :
    (sid ∉ rows.map (·.id) ∧ events.filter (fun e => e.serverId == sid) = []) ∨
      ∃ r ∈ rows, ∃ e, r.id = sid ∧ events.filter (fun e => e.serverId == sid) = [e] ∧
        e.authorityBefore = authorityStatus r ∧ e.authorityAfter = .unclaimed := by
  induction hev with
  | nil => exact Or.inl ⟨by simp, rfl⟩
  | @cons r e rs es hre _ ih =>
    obtain ⟨h1, h2, h3, -⟩ := hre
    rw [List.map_cons, List.nodup_cons] at hnd
    by_cases hid : r.id = sid
    · have hnot : sid ∉ rs.map (·.id) := hid ▸ hnd.1
      refine Or.inr ⟨r, List.mem_cons_self, e, hid, ?_, h2, h3⟩
      rcases ih hnd.2 with ⟨-, hnil⟩ | ⟨r', hr', -, he', -⟩
      · simp [h1, hid, hnil]
      · exact absurd (he' ▸ List.mem_map_of_mem hr') hnot
    · rcases ih hnd.2 with ⟨hn, hnil⟩ | ⟨r', hr', e', he', hf, hb⟩
      · refine Or.inl ⟨?_, by simp [h1, hid, hnil]⟩
        simp only [List.map_cons, List.mem_cons, not_or]
        exact ⟨fun e => hid e.symm, hn⟩
      · exact Or.inr ⟨r', List.mem_cons_of_mem _ hr', e', he', by simp [h1, hid, hf], hb⟩

theorem deleted_events {rows : List Server} {events : List AuthorityEvent}
    (hev : List.Forall₂ DeletionEvent rows events) :
    ∀ e ∈ events, e.offerId = none ∧ ∃ r ∈ rows, e.serverId = r.id := by
  induction hev with
  | nil => simp
  | @cons r e rs es hre _ ih =>
    intro e' he'
    rcases List.mem_cons.1 he' with rfl | he'
    · exact ⟨hre.2.2.2, r, List.mem_cons_self, hre.1⟩
    · obtain ⟨h1, r', hr', h2⟩ := ih e' he'
      exact ⟨h1, r', List.mem_cons_of_mem _ hr', h2⟩

theorem Move.inv {db db' : Db} (h : Inv db) (hm : Move db db') : Inv db' := by
  cases hm with
  | onboard row nextId hid hn ht => exact Move.onboard_inv h hid hn ht
  | act a hv => exact Act.inv h hv
  | delete rows events nextId hrows hnd hn hev =>
    have hoffer := deleted_events hev
    constructor
    · exact h.server_nodup.sublist (List.filter_sublist.map _)
    · intro s hs; exact lt_of_lt_of_le (h.server_fresh s (List.mem_filter.1 hs).1) hn
    · exact h.offer_nodup.sublist (List.filter_sublist.map _)
    · intro o ho; exact lt_of_lt_of_le (h.offer_fresh o (List.mem_filter.1 ho).1) hn
    · intro o ho
      obtain ⟨ho1, ho2⟩ := List.mem_filter.1 ho
      obtain ⟨s, hs, e⟩ := h.offer_target o ho1
      exact ⟨s, List.mem_filter.2 ⟨hs, by rw [e]; exact ho2⟩, e⟩
    · intro o ho; exact h.offer_check o (List.mem_filter.1 ho).1
    · intro o ho p hp; exact h.one_open o (List.mem_filter.1 ho).1 p (List.mem_filter.1 hp).1
    · intro e he
      rcases List.mem_append.1 he with he | he
      · exact ⟨lt_of_lt_of_le (h.event_fresh e he).1 hn,
          fun o ho => lt_of_lt_of_le ((h.event_fresh e he).2 o ho) hn⟩
      · obtain ⟨h1, r, hr, h2⟩ := hoffer e he
        refine ⟨?_, by simp [h1]⟩
        rw [h2]
        exact lt_of_lt_of_le (h.server_fresh r (hrows r hr)) hn
    · intro sid
      simp only [history, List.filter_append]
      rcases deleted_history hev hnd sid with ⟨hnot, hnil⟩ | ⟨r, hr, e, hid, hf, hb, ha⟩
      · rw [hnil, List.append_nil]
        have hst : statusOf { servers := db.servers.filter fun s => !(rows.map (·.id)).contains s.id
                              offers := db.offers.filter fun o => !(rows.map (·.id)).contains o.targetServerId
                              events := db.events ++ events
                              nextId := nextId } sid = statusOf db sid := by
          simp only [statusOf, Db.findServer, List.find?_filter]
          congr 2
          funext s
          by_cases hs : s.id = sid
          · simpa [hs] using hnot
          · simp [hs]
        rw [hst]
        exact h.replay sid
      · rw [hf]
        have hgone : statusOf { servers := db.servers.filter fun s => !(rows.map (·.id)).contains s.id
                                offers := db.offers.filter fun o => !(rows.map (·.id)).contains o.targetServerId
                                events := db.events ++ events
                                nextId := nextId } sid = .unclaimed := by
          unfold statusOf
          rw [findServer_none]
          intro s hs e'
          have := (List.mem_filter.1 hs).2
          have hin : s.id ∈ rows.map (·.id) := by rw [e', ← hid]; exact List.mem_map_of_mem hr
          rw [List.contains_iff_mem.2 hin] at this
          simp at this
        rw [hgone]
        have hsnoc : Replays .unclaimed (history db sid ++ [e]) e.authorityAfter :=
          (h.replay sid).snoc (by rw [hb, ← hid, h.statusOf_mem (hrows r hr)])
        rwa [ha] at hsnoc
    · intro o ho
      have hno : events.filter (isTerminalEvent o.id) = [] :=
        List.filter_eq_nil_iff.2 fun e he => by simp [isTerminalEvent, (hoffer e he).1]
      have := h.logged o (List.mem_filter.1 ho).1
      simpa only [LoggedOnce, terminalEvents, List.filter_append, hno, List.append_nil] using this

theorem Moves.inv {db db' : Db} (h : Inv db) (hm : Moves db db') : Inv db' := by
  induction hm with
  | refl => exact h
  | tail _ hm ih => exact Move.inv ih hm

end ServerBee.Authority
