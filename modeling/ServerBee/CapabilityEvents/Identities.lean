/-
The identities of capability events: every id has one content and is sent to one server.

The ghost of a run is the list of the payloads that ids were drawn for, in the order of the ids, and the server that each
identity was sent to. A journal may hold an identity that was sent only under the destination it was sent to, in memory and
in the file alike; a flush that replaces the file and still fails is why the two are compared (`Agree`).
-/
import Mathlib.Data.List.Nodup
import ServerBee.CapabilityEvents.Model

namespace ServerBee.CapabilityEvents

open ServerBee.Capabilities

variable {σ : Type} {R : ℤ → Bool} {H : String → σ}
variable {drawn : List Payload} {owner : ℕ → Option σ}

/-! ## What the journal's operations write -/

/-- the events, the destination and the file of an authority after a tick -/
theorem tick_writes (a : CapabilityAuthority) (store : CapabilityGrantStore) (now : ℤ) (flush : Flush) :
    ∃ changes, (tick R a store now flush).1.journal.events =
        a.journal.events ++ recordedEvents store now a.fresh changes ∧
      (tick R a store now flush).1.journal.destination = a.journal.destination ∧
      (tick R a store now flush).1.fresh = a.fresh + changes.length ∧
      ((tick R a store now flush).1.file = a.file ∨
        (tick R a store now flush).1.file =
          some { (tick R a store now flush).1.journal with dirty := false }) := by
  have none_recorded : recordedEvents store now a.fresh [] = [] := rfl
  unfold tick observe
  by_cases hc : ((evaluate store a.base a.journal.observedActive now).activeBits != a.journal.observedActive) = true
  · by_cases ht : wellTimed R store now (evaluate store a.base a.journal.observedActive now).changes = true
    · refine ⟨(evaluate store a.base a.journal.observedActive now).changes, ?_⟩
      cases flush <;> simp [hc, ht, CapabilityAuthority.flushed]
    · exact ⟨[], by simp [hc, ht, none_recorded]⟩
  · refine ⟨[], ?_⟩
    by_cases hd : a.journal.dirty = true
    · cases flush <;> simp [hc, hd, none_recorded, CapabilityAuthority.flushed]
    · simp [hc, hd, none_recorded]

/-- a journal that is replaced is in the file, and in memory too where the flush succeeds -/
theorem replaceJournal_cases (a : CapabilityAuthority) (next : Journal) (flush : Flush) :
    replaceJournal a next flush =
      ({ a with journal := { next with dirty := false }, file := some { next with dirty := false } }, true) ∨
    replaceJournal a next flush = ({ a with file := some { next with dirty := false } }, false) ∨
    replaceJournal a next flush = (a, false) := by
  cases flush <;> simp [replaceJournal, CapabilityAuthority.flushed]

/-- a bound journal has its owner's events only -/
theorem bound_events {journal : Journal} {destination : String} {event : Event}
    (he : event ∈ (bound journal destination).events) :
    event ∈ journal.events ∧ (journal.destination = none ∨ journal.destination = some destination) := by
  cases hd : journal.destination with
  | none => exact ⟨by simpa [bound, hd] using he, .inl rfl⟩
  | some old =>
    by_cases ho : old = destination
    · exact ⟨by simpa [bound, hd, ho] using he, .inr (by rw [ho])⟩
    · simp [bound, hd, ho] at he

/-! ## Identities -/

/-- every event of the journal has its id's payload, and its id was sent to the journal's own destination if at all -/
def Kept (H : String → σ) (drawn : List Payload) (owner : ℕ → Option σ) (journal : Journal) : Prop :=
  ∀ event ∈ journal.events, drawn[event.msgId]? = some (payloadOf event) ∧
    ∀ server, owner event.msgId = some server → journal.destination.map H = some server

/-- two copies of a journal that share an event have one destination, unless the first has none -/
def Agree (journal copy : Journal) : Prop :=
  ∀ event ∈ journal.events, ∀ event' ∈ copy.events, event.msgId = event'.msgId →
    journal.destination = none ∨ copy.destination = journal.destination

structure Sound (H : String → σ) (drawn : List Payload) (owner : ℕ → Option σ) (a : CapabilityAuthority) : Prop where
  fresh : a.fresh = drawn.length
  memory : Kept H drawn owner a.journal
  file : ∀ journal ∈ a.file, Kept H drawn owner journal
  agree : ∀ journal ∈ a.file, Agree a.journal journal

theorem Kept.lt {journal : Journal} (h : Kept H drawn owner journal) {event : Event} (he : event ∈ journal.events) :
    event.msgId < drawn.length := (List.getElem?_eq_some_iff.1 (h event he).1).1

/-- a journal with fewer events, and the same destination or one that the first did not have -/
theorem Kept.shrink {journal next : Journal} (h : Kept H drawn owner journal)
    (hn : ∀ event ∈ next.events, event ∈ journal.events ∧
      (journal.destination = none ∨ journal.destination = next.destination)) : Kept H drawn owner next := by
  intro event he
  obtain ⟨hm, hd⟩ := hn event he
  refine ⟨(h event hm).1, fun server ho => ?_⟩
  have hs := (h event hm).2 server ho
  rcases hd with hd | hd
  · simp [hd] at hs
  · rwa [hd] at hs

/-- every operation that replaces the journal by one with fewer events -/
theorem Sound.replace {a : CapabilityAuthority} (h : Sound H drawn owner a) {next : Journal}
    (hn : ∀ event ∈ next.events, event ∈ a.journal.events ∧
      (a.journal.destination = none ∨ a.journal.destination = next.destination)) (flush : Flush) :
    Sound H drawn owner (replaceJournal a next flush).1 := by
  have kept : Kept H drawn owner next := h.memory.shrink hn
  have kept' : Kept H drawn owner { next with dirty := false } := kept
  rcases replaceJournal_cases a next flush with hr | hr | hr <;> rw [hr]
  · refine ⟨h.fresh, kept', ?_, ?_⟩
    · intro journal hj
      rw [Option.mem_some_iff.1 hj.symm]
      exact kept'
    · intro journal hj event _ event' _ _
      rw [Option.mem_some_iff.1 hj.symm]
      exact .inr rfl
  · refine ⟨h.fresh, h.memory, ?_, ?_⟩
    · intro journal hj
      rw [Option.mem_some_iff.1 hj.symm]
      exact kept'
    · intro journal hj event _ event' he' _
      rw [Option.mem_some_iff.1 hj.symm] at he' ⊢
      exact (hn event' he').2.imp id Eq.symm
  · exact h

theorem Sound.bind {a : CapabilityAuthority} (h : Sound H drawn owner a) (destination : String) (flush : Flush) :
    Sound H drawn owner (bindDestination a destination flush).1 := by
  unfold bindDestination
  split
  · exact h
  · exact h.replace (fun event he => bound_events he) flush

theorem Sound.acknowledge {a : CapabilityAuthority} (h : Sound H drawn owner a) (msgId : ℕ) (flush : Flush) :
    Sound H drawn owner (acknowledgeEvent a msgId flush).1 := by
  unfold acknowledgeEvent
  split
  · refine h.replace (fun event he => ?_) flush
    exact ⟨(List.mem_filter.1 he).1, .inr rfl⟩
  · exact h

theorem Sound.discard {a : CapabilityAuthority} (h : Sound H drawn owner a) (flush : Flush) :
    Sound H drawn owner (discardLegacyEvents a flush).1 := by
  unfold discardLegacyEvents
  split
  · exact h
  · exact h.replace (fun event he => absurd he List.not_mem_nil) flush

/-- the process starts again on the copy of the file -/
theorem Sound.restart {a : CapabilityAuthority} (h : Sound H drawn owner a) (base : BitVec 32)
    (store : CapabilityGrantStore) (now now' : ℤ) (flush : Flush) :
    Sound H drawn owner
      { CapabilityAuthority.tryNew base a.file store now now' flush with fresh := a.fresh } := by
  have no_events : ∀ journal : Journal, journal.events = [] → Kept H drawn owner journal := by
    intro journal hj event he
    simp [hj] at he
  cases hf : a.file with
  | none =>
    refine ⟨h.fresh, no_events _ rfl, ?_, ?_⟩
    · intro journal hj
      cases flush <;> simp [CapabilityAuthority.tryNew] at hj <;> exact no_events _ (by rw [← hj])
    · intro journal _ event he
      exact absurd he List.not_mem_nil
  | some kept =>
    have hk : Kept H drawn owner kept := h.file kept hf
    refine ⟨h.fresh, hk, ?_, ?_⟩
    · intro journal hj
      rwa [Option.mem_some_iff.1 hj.symm]
    · intro journal hj event _ event' _ _
      rw [Option.mem_some_iff.1 hj.symm]
      exact .inr rfl

/-- drawing more ids, which nothing was sent with -/
theorem Kept.draw {journal : Journal} (h : Kept H drawn owner journal) (more : List Payload) :
    Kept H (drawn ++ more) owner journal := by
  intro event he
  exact ⟨(List.getElem?_append_left (h.lt he)).trans (h event he).1, (h event he).2⟩

theorem recordedEvents_drawn (store : CapabilityGrantStore) (now : ℤ) (changes : List CapabilityChangeEvent) {event : Event}
    (he : event ∈ recordedEvents store now drawn.length changes) :
    drawn.length ≤ event.msgId ∧
      (drawn ++ (recordedEvents store now drawn.length changes).map payloadOf)[event.msgId]? = some (payloadOf event) := by
  obtain ⟨i, hi, rfl⟩ := List.mem_mapIdx.1 he
  refine ⟨Nat.le_add_right _ _, ?_⟩
  rw [List.getElem?_append_right (Nat.le_add_right _ _)]
  simp [recordedEvents, hi]

/-- a tick draws an id for each event that it records -/
theorem Sound.tick {a : CapabilityAuthority} (h : Sound H drawn owner a) (hu : ∀ i, drawn.length ≤ i → owner i = none)
    (store : CapabilityGrantStore) (now : ℤ) (flush : Flush) :
    ∃ more, Sound H (drawn ++ more) owner (Capabilities.tick R a store now flush).1 := by
  obtain ⟨changes, hevents, hdest, hfresh, hfile⟩ := tick_writes (R := R) a store now flush
  refine ⟨(recordedEvents store now drawn.length changes).map payloadOf, ?_⟩
  have memory : Kept H (drawn ++ (recordedEvents store now drawn.length changes).map payloadOf) owner
      (Capabilities.tick R a store now flush).1.journal := by
    intro event he
    rw [hevents, h.fresh] at he
    rcases List.mem_append.1 he with he | he
    · rw [hdest]
      exact h.memory.draw _ event he
    · obtain ⟨hle, hd⟩ := recordedEvents_drawn store now changes he
      refine ⟨hd, fun server ho => ?_⟩
      rw [hu _ hle] at ho
      cases ho
  refine ⟨?_, memory, ?_, ?_⟩
  · rw [hfresh, h.fresh]
    simp [recordedEvents]
  · intro journal hj
    rcases hfile with hfile | hfile <;> rw [hfile] at hj
    · exact (h.file journal hj).draw _
    · rw [Option.mem_some_iff.1 hj.symm]
      exact memory
  · intro journal hj event he event' he' hid
    rcases hfile with hfile | hfile <;> rw [hfile] at hj
    · rw [hdest]
      rw [hevents, h.fresh] at he
      rcases List.mem_append.1 he with he | he
      · exact h.agree journal hj event he event' he' hid
      · -- the file does not have an id that is new
        have hlt := (h.file journal hj).lt he'
        have hle := (recordedEvents_drawn store now changes he).1
        omega
    · rw [Option.mem_some_iff.1 hj.symm]
      exact .inr rfl

/-- an identity is sent to the server of the journal's destination -/
theorem Sound.own {a : CapabilityAuthority} (h : Sound H drawn owner a) {event : Event} {destination : String}
    (he : event ∈ a.journal.events) (hd : a.journal.destination = some destination) :
    Sound H drawn (Function.update owner event.msgId (some (H destination))) a := by
  refine ⟨h.fresh, ?_, ?_, h.agree⟩
  · intro other ho
    refine ⟨(h.memory other ho).1, fun server hs => ?_⟩
    by_cases hid : other.msgId = event.msgId
    · rw [hid, Function.update_self] at hs
      rw [hd, ← hs]
      rfl
    · rw [Function.update_of_ne hid] at hs
      exact (h.memory other ho).2 server hs
  · intro journal hj other ho
    refine ⟨(h.file journal hj other ho).1, fun server hs => ?_⟩
    by_cases hid : other.msgId = event.msgId
    · rw [hid, Function.update_self] at hs
      rcases h.agree journal hj event he other ho hid.symm with hn | hn
      · rw [hd] at hn
        cases hn
      · rw [hn, hd, ← hs]
        rfl
    · rw [Function.update_of_ne hid] at hs
      exact (h.file journal hj other ho).2 server hs

/-- the id of a legacy frame is in no journal -/
theorem Sound.announce {a : CapabilityAuthority} (h : Sound H drawn owner a) (payload : Payload) (server : σ) :
    Sound H (drawn ++ [payload]) (Function.update owner a.fresh (some server)) { a with fresh := a.fresh + 1 } := by
  have kept : ∀ journal : Journal, Kept H drawn owner journal →
      Kept H (drawn ++ [payload]) (Function.update owner a.fresh (some server)) journal := by
    intro journal hj event he
    have hlt := hj.lt he
    rw [Function.update_of_ne (by rw [h.fresh]; omega)]
    exact hj.draw _ event he
  exact ⟨by simp [h.fresh], kept _ h.memory, fun journal hj => kept _ (h.file journal hj), h.agree⟩

/-! ## What a connection can do -/

theorem bound_destination {a : CapabilityAuthority} {destination : String} {flush : Flush}
    (h : (bindDestination a destination flush).2 = true) :
    (bindDestination a destination flush).1.journal.destination = some destination := by
  unfold bindDestination at h ⊢
  split
  · rename_i hd
    simp only [Bool.and_eq_true, beq_iff_eq] at hd
    exact hd.1
  · rename_i hd
    rw [if_neg hd] at h
    rcases replaceJournal_cases a (bound a.journal destination) flush with hr | hr | hr <;> rw [hr] at h ⊢
    · rfl
    · cases h
    · cases h

theorem retry_cases (s : St σ) (c : Connection) (store : CapabilityGrantStore) (now : ℤ) (bind discard : Flush) :
    s.retry H c store now bind discard = s ∨
    s.retry H c store now bind discard = s.setAgent (bindDestination s.agent c.peer bind).1 ∨
    (c.capabilityEventAck = false ∧ s.retry H c store now bind discard =
      s.setAgent (discardLegacyEvents (bindDestination s.agent c.peer bind).1 discard).1) ∨
    ∃ event ∈ (bindDestination s.agent c.peer bind).1.journal.events, ∃ temporary,
      c.welcomed = true ∧ (bindDestination s.agent c.peer bind).2 = true ∧
      s.retry H c store now bind discard =
        ((s.setAgent (bindDestination s.agent c.peer bind).1).setConnection { c with inflight := some event.msgId }).send
          (H c.peer) ⟨event.msgId, some event.occurredAt, (bindDestination s.agent c.peer bind).1.effective, temporary,
            event.changes⟩ := by
  unfold St.retry
  by_cases hw : c.welcomed = true
  · by_cases hb : (bindDestination s.agent c.peer bind).2 = true
    · by_cases ha : c.capabilityEventAck = true
      · cases hp : (pendingEvents (bindDestination s.agent c.peer bind).1).bind List.head? with
        | none => exact .inr (.inl (by simp [hw, hb, ha, hp]))
        | some event =>
          refine .inr (.inr (.inr ⟨event, ?_, _, hw, hb, by simp [hw, hb, ha, hp]; rfl⟩))
          obtain ⟨events, he, hh⟩ := Option.bind_eq_some_iff.1 hp
          unfold pendingEvents at he
          split at he
          · cases he
          · cases he
            exact List.mem_of_mem_head? hh
      · exact .inr (.inr (.inl ⟨by simpa using ha, by simp [hw, hb, ha]⟩))
    · exact .inr (.inl (by simp [hw, hb]))
  · exact .inl (by simp [hw])

theorem transition_cases (s : St σ) (c : Connection) (store : CapabilityGrantStore) (now : ℤ) (discard : Flush) :
    s.transition H c store now discard = s ∨
    ∃ rest, s.transition H c store now discard = s.setConnection { c with transitions := rest } ∨
      ∃ capabilities temporary changes,
        s.transition H c store now discard =
          (s.setConnection { c with transitions := rest }).announce (H c.peer) capabilities temporary changes ∨
        (c.capabilityEventAck = false ∧ s.transition H c store now discard =
          ((s.setConnection { c with transitions := rest }).announce (H c.peer) capabilities temporary changes).setAgent
            (discardLegacyEvents ((s.setConnection { c with transitions := rest }).announce (H c.peer) capabilities
              temporary changes).agent discard).1) := by
  unfold St.transition
  by_cases hl : transitionCapacity < c.transitions.length
  · exact .inr ⟨_, .inr ⟨_, _, _, .inl (by rw [if_pos hl])⟩⟩
  · rw [if_neg hl]
    cases ht : c.transitions with
    | nil => exact .inl rfl
    | cons t rest =>
      by_cases ha : c.capabilityEventAck = true
      · exact .inr ⟨rest, .inl (by simp [ha])⟩
      · refine .inr ⟨rest, .inr ⟨t.effective, t.temporary, t.changes, .inr ⟨by simpa using ha, by simp [ha]⟩⟩⟩

theorem acknowledge_cases (s : St σ) (c : Connection) (msgId : ℕ) (flush : Flush) :
    s.acknowledge c msgId flush = s ∨
    s.acknowledge c msgId flush = s.setAgent (acknowledgeEvent s.agent msgId flush).1 ∨
    s.acknowledge c msgId flush =
      (s.setAgent (acknowledgeEvent s.agent msgId flush).1).setConnection { c with inflight := none } := by
  unfold St.acknowledge
  by_cases hi : (c.capabilityEventAck && c.inflight == some msgId) = true
  · by_cases hd : (acknowledgeEvent s.agent msgId flush).2 = true
    · exact .inr (.inr (by simp only [hi, hd, if_true]))
    · exact .inr (.inl (by simp only [hi, hd, if_true]; rfl))
  · exact .inl (by simp only [hi]; rfl)

/-! ## Every step -/

/-- the agent's journals and the frames in the network have the same payload and the same server for an id -/
structure Identities (H : String → σ) (drawn : List Payload) (owner : ℕ → Option σ) (s : St σ) : Prop where
  agent : Sound H drawn owner s.agent
  unsent : ∀ i, drawn.length ≤ i → owner i = none
  frames : ∀ frame ∈ s.frames, drawn[frame.2.msgId]? = some frame.2.payload ∧ owner frame.2.msgId = some frame.1

/-- the same after more ids are drawn -/
def Grown (H : String → σ) (drawn : List Payload) (s : St σ) : Prop :=
  ∃ more owner, Identities H (drawn ++ more) owner s

namespace Identities

variable {s : St σ}

/-- an operation that only writes the journal -/
theorem setAgent (h : Identities H drawn owner s) {agent : CapabilityAuthority} (ha : Sound H drawn owner agent) :
    Identities H drawn owner (s.setAgent agent) := ⟨ha, h.unsent, h.frames⟩

theorem setConnection (h : Identities H drawn owner s) (c : Connection) :
    Identities H drawn owner (s.setConnection c) := ⟨h.agent, h.unsent, h.frames⟩

theorem draw_frame (h : Identities H drawn owner s) (more : List Payload) {frame : σ × Frame} (hf : frame ∈ s.frames) :
    (drawn ++ more)[frame.2.msgId]? = some frame.2.payload := by
  have hd := (h.frames frame hf).1
  rwa [List.getElem?_append_left (List.getElem?_eq_some_iff.1 hd).1]

theorem tick (h : Identities H drawn owner s) (store : CapabilityGrantStore) (now : ℤ) (flush : Flush) :
    ∃ more, Identities H (drawn ++ more) owner (s.tick R store now flush) := by
  obtain ⟨more, hm⟩ := h.agent.tick (R := R) h.unsent store now flush
  refine ⟨more, hm, fun i hi => h.unsent i ?_, fun frame hf => ⟨h.draw_frame more hf, (h.frames frame hf).2⟩⟩
  rw [List.length_append] at hi
  omega

/-- an event of the journal goes to the server of the journal's destination -/
theorem send (h : Identities H drawn owner s) {event : Event} {destination : String} (he : event ∈ s.agent.journal.events)
    (hd : s.agent.journal.destination = some destination) (capabilities : BitVec 32) (temporary : List TemporaryGrant) :
    Identities H drawn (Function.update owner event.msgId (some (H destination)))
      (s.send (H destination) ⟨event.msgId, some event.occurredAt, capabilities, temporary, event.changes⟩) := by
  have hlt := h.agent.memory.lt he
  refine ⟨h.agent.own he hd, ?_, ?_⟩
  · intro i hi
    rw [Function.update_of_ne (by omega)]
    exact h.unsent i hi
  · intro frame hf
    rcases List.mem_append.1 hf with hf | hf
    · refine ⟨(h.frames frame hf).1, ?_⟩
      by_cases hid : frame.2.msgId = event.msgId
      · -- the id was sent before: to the server of the same destination
        have ho := (h.frames frame hf).2
        rw [hid] at ho ⊢
        have hs := (h.agent.memory event he).2 _ ho
        rw [hd] at hs
        rw [Function.update_self, ← hs]
        rfl
      · rw [Function.update_of_ne hid]
        exact (h.frames frame hf).2
    · rw [List.mem_singleton.1 hf]
      exact ⟨(h.agent.memory event he).1, Function.update_self ..⟩

theorem announce (h : Identities H drawn owner s) (server : σ) (capabilities : BitVec 32)
    (temporary : List TemporaryGrant) (changes : List CapabilityChangeEvent) :
    Identities H (drawn ++ [(none, changes)]) (Function.update owner s.agent.fresh (some server))
      (s.announce server capabilities temporary changes) := by
  have hfresh := h.agent.fresh
  refine ⟨h.agent.announce _ _, ?_, ?_⟩
  · intro i hi
    rw [List.length_append, List.length_singleton] at hi
    rw [Function.update_of_ne (by omega)]
    exact h.unsent i (by omega)
  · intro frame hf
    rcases List.mem_append.1 hf with hf | hf
    · have hlt := (List.getElem?_eq_some_iff.1 (h.frames frame hf).1).1
      rw [Function.update_of_ne (by omega)]
      exact ⟨h.draw_frame _ hf, (h.frames frame hf).2⟩
    · rw [List.mem_singleton.1 hf]
      refine ⟨?_, Function.update_self ..⟩
      change (drawn ++ [(none, changes)])[s.agent.fresh]? = _
      rw [hfresh, List.getElem?_append_right (Nat.le_refl _)]
      simp [Frame.payload]

theorem retry (h : Identities H drawn owner s) (c : Connection) (store : CapabilityGrantStore) (now : ℤ)
    (bind discard : Flush) : ∃ owner', Identities H drawn owner' (s.retry H c store now bind discard) := by
  have hb := h.agent.bind c.peer bind
  rcases retry_cases (H := H) s c store now bind discard with hr | hr | ⟨_, hr⟩ |
    ⟨event, he, temporary, _, hok, hr⟩ <;> rw [hr]
  · exact ⟨owner, h⟩
  · exact ⟨owner, h.setAgent hb⟩
  · exact ⟨owner, h.setAgent (hb.discard discard)⟩
  · exact ⟨_, ((h.setAgent hb).setConnection _).send he (bound_destination hok) _ temporary⟩

theorem transition (h : Identities H drawn owner s) (c : Connection) (store : CapabilityGrantStore) (now : ℤ)
    (discard : Flush) : Grown H drawn (s.transition H c store now discard) := by
  rcases transition_cases (H := H) s c store now discard with hr |
    ⟨rest, hr | ⟨capabilities, temporary, changes, hr | ⟨_, hr⟩⟩⟩ <;> rw [hr]
  · exact ⟨[], owner, by simpa using h⟩
  · exact ⟨[], owner, by simpa using h.setConnection _⟩
  · exact ⟨_, _, (h.setConnection _).announce _ capabilities temporary changes⟩
  · have ha := (h.setConnection { c with transitions := rest }).announce (H c.peer) capabilities temporary changes
    exact ⟨_, _, ha.setAgent (ha.agent.discard discard)⟩

theorem acknowledge (h : Identities H drawn owner s) (c : Connection) (msgId : ℕ) (flush : Flush) :
    Identities H drawn owner (s.acknowledge c msgId flush) := by
  have hd := h.agent.acknowledge msgId flush
  rcases acknowledge_cases s c msgId flush with hr | hr | hr <;> rw [hr]
  · exact h
  · exact h.setAgent hd
  · exact (h.setAgent hd).setConnection _

theorem deliver [DecidableEq σ] (h : Identities H drawn owner s) (server : σ) (frame : Frame) (ip : String) (now : ℤ)
    (commits : Bool) : Identities H drawn owner (s.deliver server frame ip now commits) := by
  unfold St.deliver
  split
  · exact h
  · exact ⟨h.agent, h.unsent, h.frames⟩

theorem step [DecidableEq σ] (h : Identities H drawn owner s) (op : Op σ) :
    Grown H drawn (step R H s op) := by
  have same : ∀ s' : St σ, Identities H drawn owner s' → Grown H drawn s' :=
    fun s' hs => ⟨[], owner, by simpa using hs⟩
  cases op with
  | tick store now flush =>
    obtain ⟨more, hm⟩ := h.tick (R := R) store now flush
    exact ⟨more, owner, hm⟩
  | connect peer welcome => exact same _ ⟨h.agent, h.unsent, h.frames⟩
  | disconnect => exact same _ ⟨h.agent, h.unsent, h.frames⟩
  | retry store now bind discard =>
    refine step_retry (same s h) fun c _ => ?_
    obtain ⟨owner', ho⟩ := h.retry c store now bind discard
    exact ⟨[], owner', by simpa using ho⟩
  | transition store now discard => exact step_transition (same s h) fun c _ => h.transition c store now discard
  | deliver i ip now commits =>
    exact step_deliver (same s h) fun frame _ => same _ (h.deliver frame.1 frame.2 ip now commits)
  | acknowledge i flush => exact step_acknowledge (same s h) fun ack _ c _ _ => same _ (h.acknowledge c ack.2 flush)
  | rename server name => exact same _ ⟨h.agent, h.unsent, h.frames⟩
  | restart base store now now' flush => exact same _ ⟨h.agent.restart base store now now' flush, h.unsent, h.frames⟩

end Identities

theorem identities_run [DecidableEq σ] (ops : List (Op σ)) {s : St σ} (h : Identities H drawn owner s) :
    ∃ drawn' owner', Identities H drawn' owner' (run R H ops s) := by
  induction ops generalizing s drawn owner with
  | nil => exact ⟨drawn, owner, h⟩
  | cons op ops ih =>
    obtain ⟨more, owner', hs⟩ := h.step (R := R) op
    exact ih hs

/-- a first start has sent nothing -/
theorem identities_start (rows : σ → Option ServerRow) (base : BitVec 32) (store : CapabilityGrantStore) (now now' : ℤ)
    (flush : Flush) : Identities H [] (fun _ => none) (start rows base store now now' flush) := by
  refine ⟨⟨rfl, ?_, ?_, ?_⟩, fun _ _ => rfl, fun frame hf => absurd hf List.not_mem_nil⟩
  · intro event he
    exact absurd he List.not_mem_nil
  · intro journal hj event he
    cases flush <;> simp [start, CapabilityAuthority.tryNew] at hj <;> simp [← hj] at he
  · intro journal hj event he
    exact absurd he List.not_mem_nil

end ServerBee.CapabilityEvents
