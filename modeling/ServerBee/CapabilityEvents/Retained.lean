/-
No event is lost on its way to a server that acknowledges, and nothing is in the way of its delivery.

An event leaves the journal by an acknowledgement, by a discard on a connection without acknowledgements and by a change of
the destination. Where the agent only ever connects to one destination that acknowledges, the first is what is left, and an
acknowledgement stands for a receipt. An event survives a restart from the file on.
-/
import ServerBee.CapabilityEvents.Once

namespace ServerBee.CapabilityEvents

open ServerBee.Capabilities

variable {σ : Type} {R : ℤ → Bool} {H : String → σ} {destination : String}

/-! ## An event on its way -/

/-- the agent connects to the destination only, and is told that it acknowledges -/
def Op.stays (destination : String) : Op σ → Bool
  | .connect peer welcome => peer == destination && welcome == some true
  | _ => true

/-- so it does now -/
def Loyal (destination : String) (s : St σ) : Prop :=
  ∀ c ∈ s.connection, c.peer = destination ∧ c.capabilityEventAck = true

/-- a journal that holds the event for the destination, or for the first one that it is bound to -/
def Holds (destination : String) (event : Event) (journal : Journal) : Prop :=
  event ∈ journal.events ∧ (journal.destination = none ∨ journal.destination = some destination)

/-- in memory and in the file -/
def Durable (destination : String) (event : Event) (a : CapabilityAuthority) : Prop :=
  Holds destination event a.journal ∧ ∃ journal, a.file = some journal ∧ Holds destination event journal

/-- the destination's server has admitted the event as it was recorded -/
def Arrived (H : String → σ) (destination : String) (event : Event) (s : St σ) : Prop :=
  ∃ receipt ∈ (s.servers (H destination)).receipts, receipt.msgId = event.msgId ∧ receipt.payload = payloadOf event

theorem Durable.replace {event : Event} {a : CapabilityAuthority} (h : Durable destination event a) {next : Journal}
    (hn : Holds destination event next) (flush : Flush) : Durable destination event (replaceJournal a next flush).1 := by
  have hn' : Holds destination event { next with dirty := false } := hn
  rcases replaceJournal_cases a next flush with hr | hr | hr <;> rw [hr]
  · exact ⟨hn', _, rfl, hn'⟩
  · exact ⟨h.1, _, rfl, hn'⟩
  · exact h

theorem Durable.bind {event : Event} {a : CapabilityAuthority} (h : Durable destination event a) (flush : Flush) :
    Durable destination event (bindDestination a destination flush).1 := by
  unfold bindDestination
  split
  · exact h
  · refine h.replace ⟨?_, .inr rfl⟩ flush
    obtain ⟨hm, hd | hd⟩ := h.1 <;> simpa [bound, hd] using hm

/-- the acknowledgement of another event -/
theorem Durable.acknowledge {event : Event} {a : CapabilityAuthority} (h : Durable destination event a) {msgId : ℕ}
    (hid : event.msgId ≠ msgId) (flush : Flush) : Durable destination event (acknowledgeEvent a msgId flush).1 := by
  unfold acknowledgeEvent
  split
  · have kept : event ∈ a.journal.events.filter (·.msgId != msgId) := List.mem_filter.2 ⟨h.1.1, by simpa using hid⟩
    have hn : Holds destination event { a.journal with events := a.journal.events.filter (·.msgId != msgId) } :=
      ⟨kept, h.1.2⟩
    exact h.replace hn flush
  · exact h

theorem Durable.tick {event : Event} {a : CapabilityAuthority} (h : Durable destination event a)
    (store : CapabilityGrantStore) (now : ℤ) (flush : Flush) :
    Durable destination event (Capabilities.tick R a store now flush).1 := by
  obtain ⟨changes, hevents, hdest, _, hfile⟩ := tick_writes (R := R) a store now flush
  have memory : Holds destination event (Capabilities.tick R a store now flush).1.journal := by
    refine ⟨?_, by rw [hdest]; exact h.1.2⟩
    rw [hevents]
    exact List.mem_append_left _ h.1.1
  refine ⟨memory, ?_⟩
  rcases hfile with hfile | hfile <;> rw [hfile]
  · exact h.2
  · exact ⟨_, rfl, memory⟩

/-- the process starts again with the copy of the file -/
theorem Durable.restart {event : Event} {a : CapabilityAuthority} (h : Durable destination event a) (base : BitVec 32)
    (store : CapabilityGrantStore) (now now' : ℤ) (flush : Flush) :
    Durable destination event { CapabilityAuthority.tryNew base a.file store now now' flush with fresh := a.fresh } := by
  obtain ⟨journal, hf, hh⟩ := h.2
  simp only [hf]
  exact ⟨hh, journal, rfl, hh⟩

/-! ## Safety -/

/-- the event is on its way, or there -/
def Retained (H : String → σ) (destination : String) (event : Event) (s : St σ) : Prop :=
  Durable destination event s.agent ∨ Arrived H destination event s

/-- the server has the receipt -/
def Has (server : σ) (receipt : Receipt) (s : St σ) : Prop := receipt ∈ (s.servers server).receipts

/-- no step takes a receipt away -/
theorem Has.step [DecidableEq σ] {s : St σ} {server : σ} {receipt : Receipt} (hr : Has server receipt s) (op : Op σ) :
    Has server receipt (step R H s op) := by
  have kept : ∀ other db, (∀ r ∈ (s.servers other).receipts, r ∈ db.receipts) →
      receipt ∈ (Function.update s.servers other db server).receipts := by
    intro other db hk
    by_cases ho : server = other
    · subst ho
      simpa using hk receipt hr
    · rw [Function.update_of_ne ho]
      exact hr
  have agent : ∀ s', AgentStep s s' → Has server receipt s' := by
    intro s' ht
    unfold Has
    rwa [ht.servers]
  cases op with
  | tick store now flush => exact hr
  | connect peer welcome => exact hr
  | disconnect => exact hr
  | retry store now bind discard => exact step_retry hr fun c _ => agent _ (retry_agentStep s c store now bind discard)
  | transition store now discard => exact step_transition hr fun c _ => agent _ (transition_agentStep s c store now discard)
  | deliver i ip now commits =>
    refine step_deliver hr fun frame _ => ?_
    unfold St.deliver
    split
    · exact hr
    · rename_i db hd
      refine kept frame.1 db ?_
      split at hd
      · exact (admission_receipts hd).2
      · cases hd
  | acknowledge i flush => exact step_acknowledge hr fun ack _ c _ _ => agent _ (acknowledge_agentStep s c ack.2 flush)
  | rename other name => exact kept other _ (fun r h => h)
  | restart base store now now' flush => exact hr

theorem Arrived.step [DecidableEq σ] {event : Event} {s : St σ} (h : Arrived H destination event s) (op : Op σ) :
    Arrived H destination event (step R H s op) := by
  obtain ⟨receipt, hr, hp⟩ := h
  exact ⟨receipt, Has.step hr op, hp⟩

/-- a receipt with the id of an event in the journal has the event's payload -/
theorem receipt_of_event {drawn : List Payload} {owner : ℕ → Option σ} {s : St σ} (hi : Identities H drawn owner s)
    (ha : Admitted s) {event : Event} (he : event ∈ s.agent.journal.events) {server : σ} {receipt : Receipt}
    (hr : receipt ∈ (s.servers server).receipts) (hid : receipt.msgId = event.msgId) :
    receipt.payload = payloadOf event := by
  obtain ⟨frame, hf, _, hfid, hpay⟩ := (ha.servers server).sent receipt hr
  have hd := (hi.frames frame hf).1
  rw [hfid, hid, (hi.agent.memory event he).1] at hd
  rw [← hpay, Option.some.inj hd]

/-- an agent that stays writes nothing away but what an acknowledgement stands for -/
theorem Retained.step [DecidableEq σ] {drawn : List Payload} {owner : ℕ → Option σ} {s : St σ}
    (hi : Identities H drawn owner s) (ha : Admitted s) (hl : Loyal destination s) {event : Event}
    (h : Retained H destination event s) (op : Op σ) :
    Retained H destination event (CapabilityEvents.step R H s op) := by
  rcases h with h | h
  swap
  · exact .inr (h.step op)
  cases op with
  | tick store now flush => exact .inl (h.tick store now flush)
  | connect peer welcome => exact .inl h
  | disconnect => exact .inl h
  | retry store now bind discard =>
    refine step_retry (.inl h) fun c hc => ?_
    obtain ⟨rfl, hack⟩ := hl c hc
    have hb := h.bind bind
    left
    rcases retry_cases (H := H) s c store now bind discard with hr | hr | ⟨hno, _⟩ |
      ⟨first, _, temporary, _, _, hr⟩
    · rwa [hr]
    · rwa [hr]
    · rw [hack] at hno
      cases hno
    · rw [hr]
      exact hb
  | transition store now discard =>
    refine step_transition (.inl h) fun c hc => ?_
    left
    rcases transition_cases (H := H) s c store now discard with hr |
      ⟨rest, hr | ⟨capabilities, temporary, changes, hr | ⟨hno, _⟩⟩⟩
    · rwa [hr]
    · rw [hr]
      exact h
    · rw [hr]
      exact h
    · rw [(hl c hc).2] at hno
      cases hno
  | deliver i ip now commits =>
    refine step_deliver (.inl h) fun frame _ => .inl ?_
    unfold St.deliver
    split <;> exact h
  | acknowledge i flush =>
    refine step_acknowledge (.inl h) fun ack hack c hc hp => ?_
    obtain ⟨rfl, _⟩ := hl c hc
    by_cases hid : event.msgId = ack.2
    · -- the acknowledged event is one that the server has
      right
      obtain ⟨receipt, hr, hrid⟩ := ha.acks ack hack
      rw [← hp] at hr
      have hpay := receipt_of_event hi ha h.1.1 hr (hrid.trans hid.symm)
      refine ⟨receipt, ?_, hrid.trans hid.symm, hpay⟩
      rwa [(acknowledge_agentStep s c ack.2 flush).servers]
    · have hd := h.acknowledge hid flush
      left
      rcases acknowledge_cases s c ack.2 flush with hr | hr | hr
      · rwa [hr]
      · rwa [hr]
      · rw [hr]
        exact hd
  | rename server name => exact .inl h
  | restart base store now now' flush => exact .inl (h.restart base store now now' flush)

theorem Loyal.step [DecidableEq σ] {s : St σ} (h : Loyal destination s) {op : Op σ} (hop : op.stays destination = true) :
    Loyal destination (CapabilityEvents.step R H s op) := by
  -- a connection that goes on keeps its peer
  have kept : ∀ s' : St σ, (∀ c' ∈ s'.connection, ∃ c ∈ s.connection, c'.peer = c.peer ∧
      c'.capabilityEventAck = c.capabilityEventAck) → Loyal destination s' := by
    intro s' hk c' hc'
    obtain ⟨c, hc, hp, ha⟩ := hk c' hc'
    exact ⟨hp.trans (h c hc).1, ha.trans (h c hc).2⟩
  cases op with
  | tick store now flush =>
    refine kept _ fun c' hc' => ?_
    obtain ⟨c, hc, rfl⟩ := Option.map_eq_some_iff.1 hc'
    exact ⟨c, hc, rfl, rfl⟩
  | connect peer welcome =>
    intro c hc
    simp only [Op.stays, Bool.and_eq_true, beq_iff_eq] at hop
    cases hc
    exact ⟨hop.1, by simp [hop.2]⟩
  | disconnect =>
    intro c hc
    cases hc
  | retry store now bind discard =>
    refine step_retry h fun c hc => kept _ ?_
    rcases retry_cases (H := H) s c store now bind discard with hr | hr | ⟨_, hr⟩ |
      ⟨first, _, temporary, _, _, hr⟩ <;> rw [hr] <;> intro c' hc'
    · exact ⟨c', hc', rfl, rfl⟩
    · exact ⟨c', hc', rfl, rfl⟩
    · exact ⟨c', hc', rfl, rfl⟩
    · cases hc'
      exact ⟨c, hc, rfl, rfl⟩
  | transition store now discard =>
    refine step_transition h fun c hc => kept _ ?_
    rcases transition_cases (H := H) s c store now discard with hr |
      ⟨rest, hr | ⟨capabilities, temporary, changes, hr | ⟨_, hr⟩⟩⟩ <;> rw [hr] <;> intro c' hc'
    · exact ⟨c', hc', rfl, rfl⟩
    all_goals
      cases hc'
      exact ⟨c, hc, rfl, rfl⟩
  | deliver i ip now commits =>
    refine step_deliver h fun frame _ => ?_
    unfold St.deliver
    split <;> exact h
  | acknowledge i flush =>
    refine step_acknowledge h fun ack _ c hc _ => kept _ ?_
    rcases acknowledge_cases s c ack.2 flush with hr | hr | hr <;> rw [hr] <;> intro c' hc'
    · exact ⟨c', hc', rfl, rfl⟩
    · exact ⟨c', hc', rfl, rfl⟩
    · cases hc'
      exact ⟨c, hc, rfl, rfl⟩
  | rename server name => exact h
  | restart base store now now' flush =>
    intro c hc
    cases hc

theorem retained_run [DecidableEq σ] (ops : List (Op σ)) {drawn : List Payload} {owner : ℕ → Option σ} {s : St σ}
    (hi : Identities H drawn owner s) (ha : Admitted s) (hl : Loyal destination s)
    (hops : ∀ op ∈ ops, op.stays destination = true) {event : Event} (h : Retained H destination event s) :
    Retained H destination event (run R H ops s) := by
  induction ops generalizing s drawn owner with
  | nil => exact h
  | cons op ops ih =>
    obtain ⟨more, owner', hi'⟩ := hi.step (R := R) op
    exact ih hi' (ha.step op) (hl.step (hops op List.mem_cons_self)) (fun o ho => hops o (List.mem_cons_of_mem op ho))
      (h.step hi ha hl op)

/-- **No recorded event is lost.** After any run, take an event that the journal has in memory and in its file, for the
destination or for none yet. While the agent connects to that destination only and is told that it acknowledges, then
whatever flush fails, whenever the agent or a transaction stops and whatever the network does: the event is still in the
journal and its file, or the destination's server has its receipt with the event's own time and change. -/
theorem retains_events [DecidableEq σ] (R : ℤ → Bool) (H : String → σ) (rows : σ → Option ServerRow)
    (base : BitVec 32) (store : CapabilityGrantStore) (now now' : ℤ) (flush : Flush) (before after : List (Op σ))
    (destination : String) (event : Event)
    (hl : Loyal destination (run R H before (start rows base store now now' flush)))
    (hd : Durable destination event (run R H before (start rows base store now now' flush)).agent)
    (hops : ∀ op ∈ after, op.stays destination = true) :
    Durable destination event
        (run R H after (run R H before (start rows base store now now' flush))).agent ∨
      Arrived H destination event
        (run R H after (run R H before (start rows base store now now' flush))) := by
  obtain ⟨drawn, owner, hi⟩ := identities_run (R := R) before
    (identities_start (H := H) rows base store now now' flush)
  exact retained_run after hi (admitted_run before (admitted_start rows base store now now' flush)) hl hops (.inl hd)

/-- a terminal grant for a hundred seconds -/
def terminalGrant : CapabilityGrantStore := [⟨"terminal", 90, 200, "root", none⟩]

/-- a connected agent records the grant -/
def granting : List (Op String) := [.connect "d" (some true), .tick terminalGrant 100 .saved]

/-- the first acknowledgement takes the event out of the file only, and the agent stops -/
def halfAcknowledged : List (Op String) :=
  [.retry terminalGrant 103 .saved .saved, .deliver 0 "192.0.2.7" 103000000000 true, .acknowledge 0 .unsynced,
    .restart 0 terminalGrant 110 110 .saved, .connect "d" (some true), .retry terminalGrant 113 .saved .saved]

def granted : St String := run (fun _ => true) id granting (start (fun _ => some ⟨"web", 0⟩) 0 [] 50 50 .saved)

theorem grant_retained :
    Durable "d" ⟨0, 90, [⟨.terminal, .granted, some 200, some "root", none⟩]⟩
      (run (fun _ => true) id halfAcknowledged granted).agent ∨
    Arrived id "d" ⟨0, 90, [⟨.terminal, .granted, some 200, some "root", none⟩]⟩
      (run (fun _ => true) id halfAcknowledged granted) := by
  refine retains_events (fun _ => true) id (fun _ => some ⟨"web", 0⟩) 0 [] 50 50 .saved granting halfAcknowledged "d" _
    ?_ ⟨⟨?_, ?_⟩, ?_⟩ (by decide)
  · have hc : granted.connection =
        some ⟨"d", true, true, none,
          [⟨1, [⟨"terminal", 90, 200⟩], [⟨.terminal, .granted, some 200, some "root", none⟩]⟩]⟩ := by decide +kernel
    intro c hm
    cases hc.symm.trans hm
    exact ⟨rfl, rfl⟩
  · decide +kernel
  · decide +kernel
  · refine ⟨⟨1, none, [⟨0, 90, [⟨.terminal, .granted, some 200, some "root", none⟩]⟩], false⟩, ?_, ?_, .inl rfl⟩
    · decide +kernel
    · decide

end ServerBee.CapabilityEvents
