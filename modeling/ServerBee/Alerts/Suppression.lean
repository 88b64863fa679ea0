/-
The suppression window of event alerts (`capture` of `service/alert_event_intents.rs`).

Polled alerts measure the window from the last notification. Event alerts measure it from the last event: the reference of
`capture` is the newest pending intent or the row that `replay` wrote, and both carry the time of their event whether it
was marked for notification or not. So a steady stream of events is notified once, however long it lasts.

- `Marked`: how a history of captured events is marked.
- `Marked.suppressionLaw_iff`: such a history obeys the law of polled alerts exactly if none of its bursts is long.
- `EventInv`: every run produces such histories, whatever the replays between the captures do.
-/
import ServerBee.Alerts.Intents

namespace ServerBee.Alerts

open ServerBee.Lib
open ServerBee.Reminders (Maintenance)

/-! ## The law, on the events of one dimension, newest first -/

/-- an event at least five minutes after the most recent marked one is marked; marked events are that far apart -/
def SuppressionLaw : List Intent → Prop
  | [] => True
  | e :: older =>
    (∀ m ∈ older.find? (·.shouldNotify), fiveMinutes ≤ e.occurredAt - m.occurredAt → e.shouldNotify = true) ∧
      (∀ m ∈ older, m.shouldNotify = true → e.shouldNotify = true → fiveMinutes ≤ e.occurredAt - m.occurredAt) ∧
      SuppressionLaw older

instance decidableSuppressionLaw : (events : List Intent) → Decidable (SuppressionLaw events)
  | [] => .isTrue trivial
  | e :: older =>
    have := decidableSuppressionLaw older
    inferInstanceAs (Decidable ((∀ m ∈ older.find? (·.shouldNotify), fiveMinutes ≤ e.occurredAt - m.occurredAt →
      e.shouldNotify = true) ∧ (∀ m ∈ older, m.shouldNotify = true → e.shouldNotify = true →
        fiveMinutes ≤ e.occurredAt - m.occurredAt) ∧ SuppressionLaw older))

/-- events less than five minutes apart from one to the next span less than five minutes as a whole -/
def ShortBursts (times : List ℤ) : Prop :=
  ∀ burst, burst <:+: times → burst.IsChain (fun later earlier => later - earlier < fiveMinutes) →
    ∀ last ∈ burst.head?, ∀ first ∈ burst.getLast?, last - first < fiveMinutes

/-- each event is marked by its distance to the one before it -/
def Marked : List Intent → Prop
  | [] => True
  | e :: older =>
    e.shouldNotify = older.head?.all (fun p => decide (fiveMinutes ≤ e.occurredAt - p.occurredAt)) ∧
      (∀ p ∈ older, p.occurredAt ≤ e.occurredAt) ∧ Marked older

theorem Marked.append (newer : List Intent) {older : List Intent} (h : Marked (newer ++ older)) : Marked older := by
  induction newer with
  | nil => exact h
  | cons e newer ih => exact ih h.2.2

theorem Marked.unmarked_iff {e p : Intent} {older : List Intent} (h : Marked (e :: p :: older)) :
    e.shouldNotify = false ↔ e.occurredAt - p.occurredAt < fiveMinutes := by
  rw [h.1, List.head?_cons, Option.all_some, decide_eq_false_iff_not, not_le]

/-- the oldest event is marked, so there is a most recent marked one -/
theorem Marked.exists_marked {events : List Intent} (h : Marked events) (hne : events ≠ []) :
    ∃ m, events.find? (·.shouldNotify) = some m := by
  induction events with
  | nil => exact absurd rfl hne
  | cons e older ih =>
    cases he : e.shouldNotify with
    | true => exact ⟨e, List.find?_cons_of_pos he⟩
    | false =>
      have hne' : older ≠ [] := by
        rintro rfl
        have hm := h.1
        rw [he] at hm
        cases hm
      obtain ⟨m, hm⟩ := ih h.2.2 hne'
      exact ⟨m, by rw [List.find?_cons_of_neg (by simp [he]), hm]⟩

/-- along a history, being unmarked and being close to the event before is the same -/
theorem Marked.chain_iff (newer : List Intent) {m : Intent} {older : List Intent} (h : Marked (newer ++ m :: older)) :
    ((newer ++ [m]).map Intent.occurredAt).IsChain (fun later earlier => later - earlier < fiveMinutes) ↔
      ∀ e ∈ newer, e.shouldNotify = false := by
  induction newer with
  | nil => simp
  | cons e newer ih =>
    have hgap : (∀ t ∈ ((newer ++ [m]).map Intent.occurredAt).head?, e.occurredAt - t < fiveMinutes) ↔
        e.shouldNotify = false := by
      cases newer with
      | nil => simpa using h.unmarked_iff.symm
      | cons p newer => simpa using h.unmarked_iff.symm
    rw [List.cons_append, List.map_cons, List.isChain_cons, hgap, ih h.2.2]
    simp

theorem shortBursts_cons {t : ℤ} {ts : List ℤ} :
    ShortBursts (t :: ts) ↔
      (∀ burst, burst <+: t :: ts → burst.IsChain (fun later earlier => later - earlier < fiveMinutes) →
        ∀ last ∈ burst.head?, ∀ first ∈ burst.getLast?, last - first < fiveMinutes) ∧ ShortBursts ts := by
  constructor
  · intro h
    exact ⟨fun burst hb => h burst (List.infix_cons_iff.2 (Or.inl hb)),
      fun burst hb => h burst (List.infix_cons_iff.2 (Or.inr hb))⟩
  · rintro ⟨h, h'⟩ burst hb
    rcases List.infix_cons_iff.1 hb with hb | hb
    · exact h burst hb
    · exact h' burst hb

/-- a marked event is five minutes after everything before it -/
theorem Marked.apart {e : Intent} {older : List Intent} (h : Marked (e :: older)) (he : e.shouldNotify = true) :
    ∀ m ∈ older, fiveMinutes ≤ e.occurredAt - m.occurredAt := by
  intro m hm
  cases older with
  | nil => cases hm
  | cons p older =>
    have hgap : ¬ e.occurredAt - p.occurredAt < fiveMinutes := by
      rw [← h.unmarked_iff, he]
      simp
    have hle : m.occurredAt ≤ p.occurredAt := by
      rcases List.mem_cons.1 hm with rfl | hm
      · exact le_rfl
      · exact h.2.2.2.1 m hm
    omega

/-- the newest event, if no burst that ends in it is long -/
theorem Marked.head_of_short {e : Intent} {older : List Intent} (h : Marked (e :: older))
    (hs : ∀ burst, burst <+: (e :: older).map Intent.occurredAt →
      burst.IsChain (fun later earlier => later - earlier < fiveMinutes) →
      ∀ last ∈ burst.head?, ∀ first ∈ burst.getLast?, last - first < fiveMinutes)
    {m : Intent} (hm : older.find? (·.shouldNotify) = some m) (hgap : fiveMinutes ≤ e.occurredAt - m.occurredAt) :
    e.shouldNotify = true := by
  by_contra hne
  rw [Bool.not_eq_true] at hne
  obtain ⟨-, newer, rest, rfl, hnewer⟩ := List.find?_eq_some_iff_append.1 hm
  have hchain : ((e :: newer ++ [m]).map Intent.occurredAt).IsChain fun later earlier => later - earlier < fiveMinutes := by
    refine (Marked.chain_iff (e :: newer) (by simpa using h)).2 fun x hx => ?_
    rcases List.mem_cons.1 hx with rfl | hx
    · exact hne
    · simpa using hnewer x hx
  have hlt := hs _ ⟨rest.map Intent.occurredAt, by simp⟩ hchain e.occurredAt (by simp) m.occurredAt
    (by rw [List.map_append, List.map_singleton, List.getLast?_append, List.getLast?_singleton]; rfl)
  omega

/-- and conversely -/
theorem Marked.short_of_head {e : Intent} {older : List Intent} (h : Marked (e :: older))
    (hl : ∀ m, older.find? (·.shouldNotify) = some m → fiveMinutes ≤ e.occurredAt - m.occurredAt →
      e.shouldNotify = true) {burst : List ℤ} (hb : burst <+: (e :: older).map Intent.occurredAt)
    (hchain : burst.IsChain fun later earlier => later - earlier < fiveMinutes) :
    ∀ last ∈ burst.head?, ∀ first ∈ burst.getLast?, last - first < fiveMinutes := by
  intro last hlast first hfirst
  obtain ⟨l, hpre, rfl⟩ := List.prefix_map_iff.1 hb
  obtain ⟨rest, hrest⟩ := hpre
  rcases List.eq_nil_or_concat' l with rfl | ⟨newer, x, rfl⟩
  · cases hlast
  · have hx : first = x.occurredAt := by simpa using hfirst.symm
    cases newer with
    | nil =>
      have hlast' : last = x.occurredAt := by simpa using hlast.symm
      rw [hx, hlast', sub_self]
      decide
    | cons e' newer =>
      obtain ⟨rfl, rfl⟩ : e' = e ∧ newer ++ x :: rest = older := by simpa using hrest
      have hlast' : last = e'.occurredAt := by simpa using hlast.symm
      have hun := (Marked.chain_iff (e' :: newer) h).1 hchain
      -- the most recent marked event is not newer than the first of the burst
      have hrest' : Marked (x :: rest) := Marked.append (e' :: newer) h
      obtain ⟨m, hm⟩ := hrest'.exists_marked (List.cons_ne_nil _ _)
      have hmx : m.occurredAt ≤ x.occurredAt := by
        rcases List.mem_cons.1 (List.mem_of_find?_eq_some hm) with rfl | hmem
        · exact le_rfl
        · exact hrest'.2.1 m hmem
      have hfind : (newer ++ x :: rest).find? (·.shouldNotify) = some m := by
        rw [List.find?_append, List.find?_eq_none.2 fun y hy => by simp [hun y (List.mem_cons_of_mem _ hy)]]
        exact hm
      have hlt : ¬ fiveMinutes ≤ e'.occurredAt - m.occurredAt := by
        intro hge
        have := hl m hfind hge
        rw [hun e' List.mem_cons_self] at this
        cases this
      omega

/-- a history that is marked by the distances between its events obeys the law exactly if its bursts are short -/
theorem Marked.suppressionLaw_iff {events : List Intent} (h : Marked events) :
    SuppressionLaw events ↔ ShortBursts (events.map Intent.occurredAt) := by
  induction events with
  | nil =>
    refine ⟨fun _ burst hb => ?_, fun _ => trivial⟩
    rw [List.map_nil, List.infix_nil] at hb
    subst hb
    intro _ last hlast
    cases hlast
  | cons e older ih =>
    rw [List.map_cons, shortBursts_cons, ← ih h.2.2]
    constructor
    · rintro ⟨hlaw, -, hrest⟩
      exact ⟨fun burst hb hchain => h.short_of_head hlaw (by simpa using hb) hchain, hrest⟩
    · rintro ⟨hshort, hrest⟩
      exact ⟨fun m hm hgap => h.head_of_short (by simpa using hshort) hm hgap,
        fun m hm _ he => h.apart he m hm, hrest⟩

/-! ## The machine -/

/-- what holds of a pass under way, for the dimension `d`: unless `d` failed in it, no intent of `d` before one of its own
is pending outside of it -/
structure PassSound (d : Dimension) (log : List Intent) (intents : Table Intent.id) (p : Pass) : Prop where
  logged : ∀ j ∈ p.rest, j ∈ log
  sorted : p.rest.Pairwise fun i j => i.id < j.id
  ahead : ∀ j ∈ p.rest, j.dimension = d → d ∉ p.failed → ∀ i ∈ intents, i.dimension = d → i.id < j.id → i ∈ p.rest

structure EventInv {J : Type} (d : Dimension) (s : EventSt J) : Prop where
  fresh : ∀ i ∈ s.log, i.id < s.db.nextIntent
  ordered : s.log.Pairwise fun i j => j.id < i.id
  past : ∀ i ∈ s.log, i.occurredAt ≤ s.clock
  pending : ∀ i ∈ s.db.intents, i ∈ s.log
  later : ∀ i ∈ s.db.intents, i.dimension = d → ∀ j ∈ s.log, j.dimension = d → i.id < j.id → j ∈ s.db.intents
  passes : ∀ k, PassSound d s.log s.db.intents (s.passes k)
  live : ∀ i ∈ s.log, i.dimension = d → (intentTarget s.db i).isSome = true
  /-- the row is that of the newest event that is no longer pending -/
  row : ∀ e ∈ s.log, e.dimension = d → e ∉ s.db.intents →
    (∀ j ∈ s.log, j.dimension = d → e.id < j.id → j ∈ s.db.intents) →
      ∃ row, s.db.states.get (d.1, d.2, .general) = some row ∧ row.resolved = false ∧ row.lastNotifiedAt = e.occurredAt
  untouched : (∀ e ∈ s.log, e.dimension = d → e ∈ s.db.intents) →
    ∀ row, s.db.states.get (d.1, d.2, .general) = some row → row.resolved = true
  marked : Marked (s.events d)

section Machine

variable {J : Type} {d : Dimension} {decodes : String → Bool} {s : EventSt J}

theorem mem_events {i : Intent} : i ∈ s.events d ↔ i ∈ s.log ∧ i.dimension = d := by
  rw [EventSt.events, List.mem_filter, decide_eq_true_eq]

theorem EventInv.log_inj (h : EventInv d s) {i j : Intent} (hi : i ∈ s.log) (hj : j ∈ s.log) (hid : i.id = j.id) : i = j := by
  have hnodup : (s.log.map Intent.id).Nodup := List.pairwise_map.2 (h.ordered.imp fun hlt => (ne_of_lt hlt).symm)
  exact List.inj_on_of_nodup_map hnodup hi hj hid

/-- a capture measures from the newest event of its dimension -/
theorem EventInv.previousEvent_eq (h : EventInv d s) :
    (previousEvent s.db d).map (fun p => p.2.1) = (s.events d).head?.map Intent.occurredAt := by
  have hsorted : (s.events d).Pairwise fun i j => j.id < i.id := h.ordered.sublist List.filter_sublist
  cases hevents : s.events d with
  | nil =>
    have hnone : ∀ i ∈ s.log, i.dimension ≠ d := fun i hi hd => by
      have := mem_events.2 ⟨hi, hd⟩
      rw [hevents] at this
      cases this
    have hpending : newestPending s.db.intents d = none := by
      rw [newestPending, List.argmax_eq_none, List.filter_eq_nil_iff]
      intro i hi
      simpa using hnone i (h.pending i hi)
    have hrow := h.untouched fun e he hd => absurd hd (hnone e he)
    cases hget : s.db.states.get (d.1, d.2, .general) with
    | none => simp [previousEvent, hpending, hget]
    | some row => simp [previousEvent, hpending, hget, hrow row hget]
  | cons e older =>
    obtain ⟨he, hed⟩ := mem_events.1 (show e ∈ s.events d by rw [hevents]; exact List.mem_cons_self)
    have hnewest : ∀ j ∈ s.log, j.dimension = d → j.id ≤ e.id := by
      intro j hj hjd
      have hmem : j ∈ e :: older := hevents ▸ mem_events.2 ⟨hj, hjd⟩
      rw [hevents] at hsorted
      rcases List.mem_cons.1 hmem with rfl | hmem
      · exact le_rfl
      · exact (List.rel_of_pairwise_cons hsorted hmem).le
    cases hpending : newestPending s.db.intents d with
    | none =>
      rw [newestPending, List.argmax_eq_none, List.filter_eq_nil_iff] at hpending
      have hgone : e ∉ s.db.intents := fun hmem => hpending e hmem (by simpa using hed)
      obtain ⟨row, hget, hopen, hlast⟩ := h.row e he hed hgone fun j hj hjd hlt =>
        absurd (hnewest j hj hjd) (not_le_of_gt hlt)
      have hnp : newestPending s.db.intents d = none := by
        rw [newestPending, List.argmax_eq_none, List.filter_eq_nil_iff]
        exact hpending
      simp [previousEvent, hnp, hget, hopen, hlast]
    | some i =>
      obtain ⟨himem, hid⟩ := List.mem_filter.1 (List.argmax_mem hpending)
      have hid : i.dimension = d := of_decide_eq_true hid
      have hei : e = i := by
        refine h.log_inj he (h.pending i himem) (le_antisymm ?_ (hnewest i (h.pending i himem) hid))
        by_contra hlt
        have hmem : e ∈ s.db.intents := h.later i himem hid e he hed (not_le.1 hlt)
        exact hlt (List.le_of_mem_argmax (List.mem_filter.2 ⟨hmem, decide_eq_true hed⟩) hpending)
      simp [previousEvent, hpending, hei]

/-! ## Captures -/

/-- the state in which one more intent has been stored -/
def EventSt.stored (s : EventSt J) (intents : Table Intent.id) (i : Intent) : EventSt J :=
  { s with db := { s.db with intents := intents, nextIntent := s.db.nextIntent + 1 }, log := i :: s.log }

theorem EventInv.marks (h : EventInv d s) {rule : AlertRule} {serverId : ℕ} (hd : (rule.id, serverId) = d)
    (hmode : rule.triggerMode ≠ "once") (eventType : String) :
    (newIntent s.db rule serverId eventType s.clock).shouldNotify =
      (s.events d).head?.all fun p => decide (fiveMinutes ≤ s.clock - p.occurredAt) := by
  have hprev := h.previousEvent_eq
  subst hd
  simp only [newIntent, shouldNotifyEvent]
  cases hp : previousEvent s.db (rule.id, serverId) with
  | none =>
    rw [hp, Option.map_none, eq_comm, Option.map_eq_none_iff] at hprev
    rw [hprev]
    rfl
  | some p =>
    rw [hp, Option.map_some, eq_comm, Option.map_eq_some_iff] at hprev
    obtain ⟨e, he, hlast⟩ := hprev
    simp [he, hmode, hlast]

theorem EventInv.store (h : EventInv d s) {rule : AlertRule} {serverId : ℕ} {eventType : String} {intents : Table Intent.id}
    (hmode : rule.id = d.1 → rule.triggerMode ≠ "once")
    (hlive : (rule.id, serverId) = d → ∃ srv, s.db.rules.get rule.id = some rule ∧ rule.enabled = true ∧
      s.db.servers.get serverId = some srv)
    (hins : s.db.intents.insert (newIntent s.db rule serverId eventType s.clock) = some intents) :
    EventInv d (s.stored intents (newIntent s.db rule serverId eventType s.clock)) := by
  set i := newIntent s.db rule serverId eventType s.clock with hi
  have hid : i.id = s.db.nextIntent := rfl
  have hmem : ∀ j, j ∈ intents ↔ j ∈ s.db.intents ∨ j = i := fun j => Table.mem_insert hins
  have hold : ∀ j ∈ s.log, j.id < i.id := fun j hj => hid ▸ h.fresh j hj
  have hlog : i ∉ s.log := fun hmem => lt_irrefl _ (hold i hmem)
  refine ⟨?_, ?_, ?_, ?_, ?_, ?_, ?_, ?_, ?_, ?_⟩
  · rintro j (_ | ⟨_, hj⟩)
    · exact Nat.lt_succ_self _
    · exact Nat.lt_succ_of_lt (h.fresh j hj)
  · exact List.pairwise_cons.2 ⟨hold, h.ordered⟩
  · rintro j (_ | ⟨_, hj⟩)
    · exact le_refl s.clock
    · exact h.past j hj
  · intro j hj
    rcases (hmem j).1 hj with hj | rfl
    · exact List.mem_cons_of_mem _ (h.pending j hj)
    · exact List.mem_cons_self
  · intro j hj hjd k hk hkd hlt
    refine (hmem k).2 ?_
    rcases List.mem_cons.1 hk with rfl | hk
    · exact Or.inr rfl
    · rcases (hmem j).1 hj with hj | rfl
      · exact Or.inl (h.later j hj hjd k hk hkd hlt)
      · exact absurd (hold k hk) (not_lt_of_gt hlt)
  · intro k
    have hp := h.passes k
    refine ⟨fun j hj => List.mem_cons_of_mem _ (hp.logged j hj), hp.sorted, fun j hj hjd hf x hx hxd hlt => ?_⟩
    rcases (hmem x).1 hx with hx | rfl
    · exact hp.ahead j hj hjd hf x hx hxd hlt
    · exact absurd (hold j (hp.logged j hj)) (not_lt_of_gt hlt)
  · rintro j (_ | ⟨_, hj⟩) hjd
    · obtain ⟨srv, hrule, hen, hsrv⟩ := hlive hjd
      show (intentTarget s.db i).isSome = true
      simp only [intentTarget, hi, newIntent, hrule, hsrv, hen]
      rfl
    · exact h.live j hj hjd
  · intro e he hed hgone hnewer
    have hne : e ≠ i := fun heq => hgone ((hmem e).2 (Or.inr heq))
    have he' : e ∈ s.log := (List.mem_cons.1 he).resolve_left hne
    refine h.row e he' hed (fun hin => hgone ((hmem e).2 (Or.inl hin))) fun j hj hjd hlt => ?_
    exact ((hmem j).1 (hnewer j (List.mem_cons_of_mem _ hj) hjd hlt)).resolve_right fun heq => hlog (heq ▸ hj)
  · intro hall
    refine h.untouched fun e he hed => ?_
    exact ((hmem e).1 (hall e (List.mem_cons_of_mem _ he) hed)).resolve_right fun heq => hlog (heq ▸ he)
  · have hevents : (s.stored intents i).events d = if i.dimension = d then i :: s.events d else s.events d := by
      simp only [EventSt.events, EventSt.stored, List.filter_cons, decide_eq_true_eq]
    rw [hevents]
    split_ifs with hdim
    · refine ⟨h.marks hdim (hmode (congrArg Prod.fst hdim)) eventType, fun p hp => ?_, h.marked⟩
      exact h.past p (mem_events.1 hp).1
    · exact h.marked

/-- the rules of one event, one after the other -/
theorem EventInv.captureRules (h : EventInv d s) {serverId : ℕ} {eventType : String} (rules : List AlertRule)
    (hrules : ∀ rule ∈ rules, rule ∈ s.db.rules ∧ rule.enabled = true)
    (hmode : ∀ rule ∈ s.db.rules, rule.id = d.1 → rule.triggerMode ≠ "once")
    (hserver : (s.db.servers.get d.2).isSome = true) {db' : EventDb J}
    (hfold : rules.foldlM (captureRule decodes serverId eventType s.clock) s.db = some db') :
    ∃ new, db'.intents.rows = s.db.intents.rows ++ new ∧ db'.rules = s.db.rules ∧ db'.servers = s.db.servers ∧
      EventInv d { s with db := db', log := new.reverse ++ s.log } := by
  induction rules generalizing s with
  | nil =>
    cases hfold
    exact ⟨[], by simp, rfl, rfl, h⟩
  | cons rule rules ih =>
    rw [List.foldlM_cons] at hfold
    obtain ⟨db₁, hone, hrest⟩ := Option.bind_eq_some_iff.1 hfold
    have hmem := hrules rule List.mem_cons_self
    rcases captureRule_cases hone with rfl | ⟨intents, hins, rfl⟩
    · exact ih h (fun r hr => hrules r (List.mem_cons_of_mem _ hr)) hmode hserver hrest
    · have hlive : (rule.id, serverId) = d → ∃ srv, s.db.rules.get rule.id = some rule ∧ rule.enabled = true ∧
          s.db.servers.get serverId = some srv := by
        rintro rfl
        obtain ⟨srv, hsrv⟩ := Option.isSome_iff_exists.1 hserver
        exact ⟨srv, Table.get_key hmem.1, hmem.2, hsrv⟩
      have h₁ := h.store (fun hid => hmode rule hmem.1 hid) hlive hins
      obtain ⟨new, hrows, hr, hsv, hinv⟩ :=
        ih h₁ (fun r hr => hrules r (List.mem_cons_of_mem _ hr)) hmode hserver hrest
      have hadd : intents.rows = s.db.intents.rows ++ [newIntent s.db rule serverId eventType s.clock] := by
        unfold Table.insert at hins
        split_ifs at hins
        cases hins
        rfl
      refine ⟨newIntent s.db rule serverId eventType s.clock :: new, ?_, hr, hsv, ?_⟩
      · rw [hrows]
        show intents.rows ++ new = _
        rw [hadd, List.append_assoc, List.singleton_append]
      · rw [List.reverse_cons, List.append_assoc]
        exact hinv

/-! ## Replays -/

theorem PassSound.mono {log : List Intent} {intents intents' : Table Intent.id} {p : Pass}
    (h : PassSound d log intents p) (hsub : ∀ i ∈ intents', i ∈ intents) : PassSound d log intents' p :=
  ⟨h.logged, h.sorted, fun j hj hjd hf i hi hid hlt => h.ahead j hj hjd hf i (hsub i hi) hid hlt⟩

/-- a pass may leave its next intent behind once that is not pending or its dimension has failed -/
theorem PassSound.tail {log : List Intent} {intents : Table Intent.id} {item : Intent} {rest : List Intent}
    {failed failed' : List Dimension} (h : PassSound d log intents ⟨item :: rest, failed⟩)
    (hf : ∀ x ∈ failed, x ∈ failed') (hitem : item.dimension = d → d ∈ failed' ∨ item ∉ intents) :
    PassSound d log intents ⟨rest, failed'⟩ := by
  refine ⟨fun j hj => h.logged j (List.mem_cons_of_mem _ hj), (List.pairwise_cons.1 h.sorted).2,
    fun j hj hjd hnf i hi hid hlt => ?_⟩
  have hmem := h.ahead j (List.mem_cons_of_mem _ hj) hjd (fun hin => hnf (hf d hin)) i hi hid hlt
  refine (List.mem_cons.1 hmem).resolve_left ?_
  rintro rfl
  exact (hitem hid).elim hnf fun hgone => hgone hi

/-- the next intent of a pass is the first pending one of its dimension -/
theorem PassSound.first {log : List Intent} {intents : Table Intent.id} {item : Intent} {rest : List Intent}
    {failed : List Dimension} (h : PassSound d log intents ⟨item :: rest, failed⟩) (hd : item.dimension = d)
    (hf : d ∉ failed) : ∀ i ∈ intents, i.dimension = d → item.id ≤ i.id := by
  intro i hi hid
  by_contra hlt
  rcases List.mem_cons.1 (h.ahead item List.mem_cons_self hd hf i hi hid (not_le.1 hlt)) with rfl | hmem
  · exact hlt le_rfl
  · exact hlt (List.rel_of_pairwise_cons h.sorted hmem).le

theorem EventInv.withPass (h : EventInv d s) {p : Pass} (hp : PassSound d s.log s.db.intents p) (k : ℕ) (cache : Cache) :
    EventInv d { s with cache := cache, passes := Function.update s.passes k p } := by
  refine { h with passes := fun k' => ?_ }
  by_cases hk : k' = k
  · subst hk
    simpa using hp
  · simpa [hk] using h.passes k'

theorem EventInv.eq_of_get (h : EventInv d s) {item it : Intent} (hitem : item ∈ s.log)
    (hget : s.db.intents.get item.id = some it) : it = item := by
  obtain ⟨hmem, hid⟩ := Table.get_eq_some.1 hget
  exact h.log_inj (h.pending it hmem) hitem hid

open Classical in
/-- the row of `d` after a replay -/
theorem EventInv.replayed_row (h : EventInv d s) {call : Call J} {item : Intent} {r : Replayed J} (hitem : item ∈ s.log)
    (hr : replayOne call s.db item.id = some r) :
    r.db.states.get (d.1, d.2, .general) =
      if item ∈ s.db.intents ∧ item.dimension = d then some item.state else s.db.states.get (d.1, d.2, .general) := by
  rcases replayOne_cases hr with ⟨hnone, hdb⟩ | ⟨it, hget, hcase⟩
  · rw [hdb, if_neg fun hc => Table.get_eq_none.1 hnone item hc.1 rfl]
  · obtain rfl := h.eq_of_get hitem hget
    have hmem : it ∈ s.db.intents := (Table.get_eq_some.1 hget).1
    rcases hcase with ⟨hnone, hdb⟩ | ⟨_, states, jobs, -, hstore, hdb⟩
    · rw [hdb, if_neg]
      rintro ⟨-, hd⟩
      have hlive := h.live it hitem hd
      rw [hnone] at hlive
      cases hlive
    · rw [hdb]
      show states.get (d.1, d.2, .general) = _
      rw [storeState_some rfl hstore]
      refine if_congr ⟨fun hk => ⟨hmem, ?_⟩, fun hc => ?_⟩ rfl rfl
      · simp only [AlertState.key, Intent.state, Prod.mk.injEq] at hk
        exact Prod.ext hk.1.symm hk.2.1.symm
      · rw [← hc.2]
        rfl

/-- consuming the first pending intent of a dimension -/
theorem EventInv.consume (h : EventInv d s) {call : Call J} {item : Intent} {r : Replayed J} (hitem : item ∈ s.log)
    (hfirst : item.dimension = d → ∀ i ∈ s.db.intents, i.dimension = d → item.id ≤ i.id)
    (hr : replayOne call s.db item.id = some r) : EventInv d { s with db := r.db } := by
  obtain ⟨hrules, hservers, hnext⟩ := replayOne_frame hr
  have hmem : ∀ i, i ∈ r.db.intents ↔ i ∈ s.db.intents ∧ i.id ≠ item.id := fun i => replayOne_intents hr
  have hsub : ∀ i ∈ r.db.intents, i ∈ s.db.intents := fun i hi => ((hmem i).1 hi).1
  have hrow := h.replayed_row hitem hr
  refine ⟨?_, h.ordered, h.past, fun i hi => h.pending i (hsub i hi), ?_, fun k => (h.passes k).mono hsub, ?_, ?_, ?_,
    h.marked⟩
  · intro i hi
    show i.id < r.db.nextIntent
    rw [hnext]
    exact h.fresh i hi
  · intro i hi hid j hj hjd hlt
    refine (hmem j).2 ⟨h.later i (hsub i hi) hid j hj hjd hlt, fun heq => ?_⟩
    obtain rfl := h.log_inj hj hitem heq
    exact absurd (hfirst hjd i (hsub i hi) hid) (not_le_of_gt hlt)
  · intro i hi hid
    have hlive := h.live i hi hid
    simp only [intentTarget, hrules, hservers] at hlive ⊢
    exact hlive
  · intro e he hed hgone hnewer
    by_cases hpend : e ∈ s.db.intents
    · -- this is the intent that was consumed
      have hid : e.id = item.id := by
        by_contra hne
        exact hgone ((hmem e).2 ⟨hpend, hne⟩)
      obtain rfl := h.log_inj he hitem hid
      refine ⟨e.state, ?_, rfl, rfl⟩
      show r.db.states.get _ = _
      rw [hrow, if_pos ⟨hpend, hed⟩]
    · have hother : ¬ (item ∈ s.db.intents ∧ item.dimension = d) := by
        rintro ⟨hin, hid⟩
        rcases lt_trichotomy e.id item.id with hlt | heq | hlt
        · exact ((hmem item).1 (hnewer item hitem hid hlt)).2 rfl
        · exact hpend (h.log_inj he hitem heq ▸ hin)
        · exact hpend (h.later item hin hid e he hed hlt)
      show ∃ row, r.db.states.get _ = _ ∧ _
      rw [hrow, if_neg hother]
      exact h.row e he hed hpend fun j hj hjd hlt => hsub j (hnewer j hj hjd hlt)
  · intro hall row hget
    have hother : ¬ (item ∈ s.db.intents ∧ item.dimension = d) := fun hc =>
      ((hmem item).1 (hall item hitem hc.2)).2 rfl
    have hget' : r.db.states.get (d.1, d.2, .general) = some row := hget
    rw [hrow, if_neg hother] at hget'
    exact h.untouched (fun e he hed => hsub e (hall e he hed)) row hget'

theorem EventInv.takeNext (h : EventInv d s) (k : ℕ) (call : Call J) : EventInv d (s.takeNext k call) := by
  have hpass := h.passes k
  unfold EventSt.takeNext
  cases hrest : s.passes k with
  | mk pending failed =>
    rw [hrest] at hpass
    cases pending with
    | nil => exact h
    | cons item rest =>
      have hitem : item ∈ s.log := hpass.logged item List.mem_cons_self
      simp only [replayItem]
      split_ifs with hf
      · exact h.withPass (hpass.tail (fun _ hx => hx) fun hd => Or.inl (hd ▸ hf)) k _
      · cases hr : replayOne call s.db item.id with
        | none =>
          refine h.withPass (hpass.tail (fun _ hx => List.mem_cons_of_mem _ hx) fun hd => Or.inl ?_) k _
          exact List.mem_cons.2 (Or.inl hd.symm)
        | some r =>
          have hnext := h.consume hitem (fun hd => hpass.first hd (hd ▸ hf)) hr
          refine hnext.withPass (PassSound.tail (hpass.mono fun i hi => ((replayOne_intents hr).1 hi).1)
            (fun _ hx => hx) fun _ => Or.inr fun hmem => ?_) k _
          exact ((replayOne_intents hr).1 hmem).2 rfl

/-! ## Runs -/

/-- the rules and servers of the run -/
structure Fixed (rules : Table AlertRule.id) (servers : Table Server.id) (s : EventSt J) : Prop where
  rules : s.db.rules = rules
  servers : s.db.servers = servers

theorem EventInv.begin (h : EventInv d s) (k : ℕ) :
    EventInv d { s with passes := Function.update s.passes k ⟨pendingBatch s.db, []⟩ } :=
  h.withPass ⟨fun _ hj => h.pending _ (pendingBatch_subset hj), pendingBatch_sorted s.db,
    fun _ hj _ _ _ hi _ hlt => pendingBatch_closed hj hi hlt⟩ k s.cache

theorem EventInv.tick (h : EventInv d s) (elapsed : ℕ) : EventInv d { s with clock := s.clock + elapsed } := by
  refine { h with past := fun i hi => ?_ }
  have := h.past i hi
  show i.occurredAt ≤ s.clock + elapsed
  omega

theorem eventStep_inv (decodes : String → Bool) {rules : Table AlertRule.id} {servers : Table Server.id} (hfix : Fixed rules servers s)
    (hmode : ∀ rule ∈ rules, rule.id = d.1 → rule.triggerMode ≠ "once") (hserver : (servers.get d.2).isSome = true)
    (h : EventInv d s) (op : EventOp J) :
    Fixed rules servers (eventStep decodes s op) ∧ EventInv d (eventStep decodes s op) := by
  obtain ⟨rfl, rfl⟩ := hfix
  cases op with
  | capture serverId eventType elapsed now commits =>
    simp only [eventStep]
    cases hcap : capture decodes s.db serverId eventType (s.clock + elapsed) now with
    | none => exact ⟨⟨rfl, rfl⟩, h.tick elapsed⟩
    | some db =>
      cases commits with
      | false => exact ⟨⟨rfl, rfl⟩, h.tick elapsed⟩
      | true =>
        simp only [addedIntents]
        unfold capture at hcap
        split_ifs at hcap
        · cases hcap
          rw [List.drop_length]
          exact ⟨⟨rfl, rfl⟩, h.tick elapsed⟩
        · obtain ⟨new, hrows, hr, hsv, hinv⟩ := (h.tick elapsed).captureRules _
            (fun rule hrule => List.mem_filter.1 hrule) hmode hserver hcap
          rw [hrows, List.drop_left]
          exact ⟨⟨hr, hsv⟩, hinv⟩
  | setMaintenances maintenances => exact ⟨⟨rfl, rfl⟩, { h with }⟩
  | begin pass => exact ⟨⟨rfl, rfl⟩, h.begin pass⟩
  | next pass call =>
    refine ⟨?_, h.takeNext pass call⟩
    simp only [eventStep, EventSt.takeNext]
    split
    · exact ⟨rfl, rfl⟩
    · simp only [replayItem]
      split_ifs
      · exact ⟨rfl, rfl⟩
      · cases hr : replayOne call s.db _ with
        | none => exact ⟨rfl, rfl⟩
        | some r =>
          obtain ⟨hrules, hservers, -⟩ := replayOne_frame hr
          exact ⟨hrules, hservers⟩

theorem eventInv_init (rules : Table AlertRule.id) (servers : Table Server.id) (maintenances : List Maintenance)
    (states : States) (jobs : J) (hrow : ∀ row, states.get (d.1, d.2, .general) = some row → row.resolved = true) :
    EventInv d (EventSt.init rules servers maintenances states jobs) where
  fresh _ hi := by cases hi
  ordered := List.Pairwise.nil
  past _ hi := by cases hi
  pending _ hi := absurd hi (Table.not_mem_empty _)
  later _ hi := absurd hi (Table.not_mem_empty _)
  passes _ := ⟨fun _ hj => (by cases hj), List.Pairwise.nil, fun _ hj => (by cases hj)⟩
  live _ hi := by cases hi
  row _ he := by cases he
  untouched _ := hrow
  marked := trivial

theorem eventRun_inv {rules : Table AlertRule.id} {servers : Table Server.id} (hfix : Fixed rules servers s)
    (hmode : ∀ rule ∈ rules, rule.id = d.1 → rule.triggerMode ≠ "once") (hserver : (servers.get d.2).isSome = true)
    (h : EventInv d s) (ops : List (EventOp J)) : EventInv d (eventRun decodes s ops) := by
  induction ops generalizing s with
  | nil => exact h
  | cons op ops ih =>
    obtain ⟨hfix', h'⟩ := eventStep_inv decodes hfix hmode hserver h op
    exact ih hfix' h'

end Machine

/-- **The suppression window.** In every run, for a rule that is not in once mode and an existing server without an open
alert at the start, the captured events obey the law of polled alerts exactly if none of their bursts lasts five minutes
or more. -/
theorem event_suppression {J : Type} (decodes : String → Bool) (rules : Table AlertRule.id) (servers : Table Server.id)
    (maintenances : List Maintenance) (states : States) (jobs : J) (ops : List (EventOp J)) (d : Dimension)
    (hmode : ∀ rule ∈ rules, rule.id = d.1 → rule.triggerMode ≠ "once") (hserver : (servers.get d.2).isSome = true)
    (hrow : ∀ row, states.get (d.1, d.2, .general) = some row → row.resolved = true) :
    let s := eventRun decodes (EventSt.init rules servers maintenances states jobs) ops
    SuppressionLaw (s.events d) ↔ ShortBursts ((s.events d).map Intent.occurredAt) :=
  (eventRun_inv ⟨rfl, rfl⟩ hmode hserver (eventInv_init rules servers maintenances states jobs hrow) ops).marked.suppressionLaw_iff

/-! ## A burst of three events -/

def ipRule : AlertRule :=
  { id := 1
    name := "moves"
    enabled := true
    rulesJson := "[ip_changed]"
    items := [⟨"ip_changed", none⟩]
    triggerMode := "always"
    notificationGroupId := none
    coverType := "all"
    serverIds := [] }

/-- events now, after three minutes and after six -/
def steadyEvents : List (EventOp Unit) :=
  [.capture 1 "ip_changed" 0 0 true, .capture 1 "ip_changed" 180000000000 0 true,
    .capture 1 "ip_changed" 180000000000 0 true]

def steadyRun : EventSt Unit :=
  eventRun (fun _ => true) (EventSt.init ⟨[ipRule], by decide⟩ ⟨[⟨1, "a"⟩], by decide⟩ [] ∅ ()) steadyEvents

/-- **A steady stream is notified once.** The third event is six minutes after the marked one and is not marked. -/
theorem steady_stream_suppressed :
    (steadyRun.events (1, 1)).map (fun i => (i.occurredAt, i.shouldNotify)) =
      [(360000000000, false), (180000000000, false), (0, true)] ∧ ¬ SuppressionLaw (steadyRun.events (1, 1)) := by
  decide +kernel

/-- two events six minutes apart are both notified -/
theorem event_suppression_apart :
    let s := eventRun (fun _ => true) (EventSt.init ⟨[ipRule], by decide⟩ ⟨[⟨1, "a"⟩], by decide⟩ [] ∅ ())
      [.capture 1 "ip_changed" 0 0 true, .capture 1 "ip_changed" 360000000000 0 true]
    SuppressionLaw (s.events (1, 1)) ↔ ShortBursts ((s.events (1, 1)).map Intent.occurredAt) :=
  event_suppression (fun _ => true) ⟨[ipRule], by decide⟩ ⟨[⟨1, "a"⟩], by decide⟩ [] ∅ ()
    [.capture 1 "ip_changed" 0 0 true, .capture 1 "ip_changed" 360000000000 0 true] (1, 1)
    (fun rule hrule _ => by
      obtain rfl := List.mem_singleton.1 hrule
      decide)
    rfl (fun _ hget => by cases hget)

end ServerBee.Alerts
