/-
Nothing is in the way of delivery: from whatever state a run leaves, an undisturbed connection empties the journal.

A round is the honest continuation [retry, deliver, acknowledge] for the first event. It succeeds whatever was sent, admitted
or half done before, because a receipt of the event's id is one of the event.
-/
import ServerBee.CapabilityEvents.Retained

namespace ServerBee.CapabilityEvents

open ServerBee.Capabilities

variable {σ : Type} {R : ℤ → Bool} {H : String → σ} {destination : String}
variable {drawn : List Payload} {owner : ℕ → Option σ}

/-- the frame and the acknowledgement of a round are the last ones sent -/
def round (store : CapabilityGrantStore) (now clock : ℤ) (ip : String) (s : St σ) : List (Op σ) :=
  [.retry store now .saved .saved, .deliver s.frames.length ip clock true, .acknowledge s.acks.length .saved]

def rounds [DecidableEq σ] (R : ℤ → Bool) (H : String → σ) (store : CapabilityGrantStore) (now clock : ℤ)
    (ip : String) : ℕ → St σ → St σ
  | 0, s => s
  | n + 1, s => rounds R H store now clock ip n (run R H (round store now clock ip s) s)

/-- the agent is connected to the destination, which is its journal's, and the server is there at a time when it takes the
events -/
structure Ready (H : String → σ) (destination : String) (clock : ℤ) (s : St σ) : Prop where
  connection : ∃ c, s.connection = some c ∧ c.peer = destination ∧ c.welcomed = true ∧ c.capabilityEventAck = true
  owned : s.agent.journal.destination = none ∨ s.agent.journal.destination = some destination
  server : (s.servers (H destination)).server.isSome = true
  times : ∀ event ∈ s.agent.journal.events, nanos event.occurredAt ≤ clock + nanos 300

/-! ## One round -/

/-- the journal after a flush that succeeds -/
theorem bind_saved {a : CapabilityAuthority} (hd : a.journal.destination = none ∨ a.journal.destination = some destination) :
    (bindDestination a destination .saved).2 = true ∧
      (bindDestination a destination .saved).1.journal.events = a.journal.events ∧
      (bindDestination a destination .saved).1.journal.destination = some destination ∧
      (bindDestination a destination .saved).1.journal.dirty = false := by
  unfold bindDestination
  split
  · rename_i h
    simp only [Bool.and_eq_true, beq_iff_eq, Bool.not_eq_true'] at h
    exact ⟨rfl, rfl, h.1, h.2⟩
  · rcases hd with hd | hd <;> simp [replaceJournal, bound, hd]

/-- a frame of an event that the journal holds is admitted, now or again -/
theorem admission_of_event {s : St σ} (hi : Identities H drawn owner s) (ha : Admitted s) {clock : ℤ}
    {event : Event} (he : event ∈ s.agent.journal.events) {server : σ} (hrow : (s.servers server).server.isSome = true)
    (ht : nanos event.occurredAt ≤ clock + nanos 300) (ip : String) (capabilities : BitVec 32)
    (temporary : List TemporaryGrant) :
    ∃ db, admission (s.servers server) ip clock
      ⟨event.msgId, some event.occurredAt, capabilities, temporary, event.changes⟩ = some db ∧ db.server.isSome = true := by
  unfold admission
  cases hf : (s.servers server).receipts.find? (·.msgId == event.msgId) with
  | some old =>
    have hid : old.msgId = event.msgId := by simpa using List.find?_some hf
    have hp : old.payload = payloadOf event := receipt_of_event hi ha he (List.mem_of_find?_eq_some hf) hid
    refine ⟨_, if_pos hp, ?_⟩
    simpa [updateCapabilitiesMirror] using hrow
  | none =>
    obtain ⟨row, hr⟩ := Option.isSome_iff_exists.1 hrow
    simp [hr, updateCapabilitiesMirror, Int.not_lt.2 ht]

/-- the frame that was sent last is admitted and acknowledged -/
theorem deliver_last [DecidableEq σ] {s : St σ} {server : σ} {frame : Frame} {ip : String} {clock : ℤ} {db : Database}
    (hdb : admission (s.servers server) ip clock frame = some db) (hat : frame.occurredAt.isSome = true) :
    step R H (s.send server frame) (.deliver s.frames.length ip clock true) =
      { s.send server frame with
        servers := Function.update s.servers server db
        acks := s.acks ++ [(server, frame.msgId)] } := by
  have hlast : (s.send server frame).frames[s.frames.length]? = some (server, frame) := by simp [St.send]
  have hadm : admission ((s.send server frame).servers server) ip clock frame = some db := hdb
  simp only [step, hlast, Option.elim_some, St.deliver, if_true, hadm, hat]
  rfl

/-- the acknowledgement that was sent last takes its event out of the journal and of the file -/
theorem acknowledge_last [DecidableEq σ] {s : St σ} {c : Connection} {msgId : ℕ} {acks : List (σ × ℕ)}
    (hc : s.connection = some c) (hack : c.capabilityEventAck = true) (hin : c.inflight = some msgId)
    (hs : s.acks = acks ++ [(H c.peer, msgId)]) {event : Event} (he : event ∈ s.agent.journal.events)
    (hid : event.msgId = msgId) :
    step R H s (.acknowledge acks.length .saved) =
      (s.setAgent (acknowledgeEvent s.agent msgId .saved).1).setConnection { c with inflight := none } ∧
    (acknowledgeEvent s.agent msgId .saved).1.journal =
      { s.agent.journal with events := s.agent.journal.events.filter (·.msgId != msgId), dirty := false } := by
  have hlast : s.acks[acks.length]? = some (H c.peer, msgId) := by simp [hs]
  have hany : s.agent.journal.events.any (·.msgId == msgId) = true := List.any_eq_true.2 ⟨event, he, by simp [hid]⟩
  have hdone : (acknowledgeEvent s.agent msgId .saved).2 = true := by simp [acknowledgeEvent, hany, replaceJournal]
  refine ⟨?_, by simp [acknowledgeEvent, hany, replaceJournal]⟩
  simp [step, hlast, hc, St.acknowledge, hack, hin, hdone]

/-- **A round delivers the first event.** -/
theorem round_delivers [DecidableEq σ] {s : St σ} (hi : Identities H drawn owner s) (ha : Admitted s) {clock : ℤ}
    (h : Ready H destination clock s) (store : CapabilityGrantStore) (now : ℤ) (ip : String) {event : Event}
    {rest : List Event} (he : s.agent.journal.events = event :: rest) :
    Ready H destination clock (run R H (round store now clock ip s) s) ∧
      (run R H (round store now clock ip s) s).agent.journal.events =
        (event :: rest).filter (·.msgId != event.msgId) ∧
      ∀ other ∈ event :: rest, other.msgId = event.msgId →
        Arrived H destination other (run R H (round store now clock ip s) s) := by
  obtain ⟨c, hc, rfl, hw, hack⟩ := h.connection
  obtain ⟨hok, hevents, hdest, hclean⟩ := bind_saved (a := s.agent) h.owned
  have hm : event ∈ s.agent.journal.events := by rw [he]; exact List.mem_cons_self
  obtain ⟨db, hdb, hrow⟩ := admission_of_event hi ha hm h.server (h.times event hm) ip
    (bindDestination s.agent c.peer .saved).1.effective (store.activeGrants now (bindDestination s.agent c.peer .saved).1.base)
  -- the event goes out
  have hretry : step R H s (.retry store now .saved .saved) =
      ((s.setAgent (bindDestination s.agent c.peer .saved).1).setConnection { c with inflight := some event.msgId }).send
        (H c.peer) ⟨event.msgId, some event.occurredAt, (bindDestination s.agent c.peer .saved).1.effective,
          store.activeGrants now (bindDestination s.agent c.peer .saved).1.base, event.changes⟩ := by
    have hp : (pendingEvents (bindDestination s.agent c.peer .saved).1).bind List.head? = some event := by
      simp [pendingEvents, hclean, hevents, he]
    simp [step, hc, St.retry, hw, hok, hack, hp]
  -- it is admitted, and the acknowledgement takes it out
  set sent := (s.setAgent (bindDestination s.agent c.peer .saved).1).setConnection { c with inflight := some event.msgId }
  set frame : Frame := ⟨event.msgId, some event.occurredAt, (bindDestination s.agent c.peer .saved).1.effective,
    store.activeGrants now (bindDestination s.agent c.peer .saved).1.base, event.changes⟩
  have hdeliver := deliver_last (R := R) (H := H) (s := sent) hdb rfl
  have hmem : event ∈ sent.agent.journal.events := by
    change event ∈ (bindDestination s.agent c.peer .saved).1.journal.events
    rwa [hevents]
  set admitted : St σ := { sent.send (H c.peer) frame with
    servers := Function.update sent.servers (H c.peer) db
    acks := sent.acks ++ [(H c.peer, frame.msgId)] }
  obtain ⟨hstep, hjournal⟩ := acknowledge_last (R := R) (H := H) (s := admitted)
    (c := { c with inflight := some event.msgId }) rfl hack rfl rfl hmem rfl
  have hrun : run R H (round store now clock ip s) s =
      (admitted.setAgent (acknowledgeEvent sent.agent event.msgId .saved).1).setConnection { c with inflight := none } := by
    simp only [run, round, List.foldl_cons, List.foldl_nil, hretry]
    exact (congrArg (fun s' => step R H s' _) hdeliver).trans hstep
  have hleft : (run R H (round store now clock ip s) s).agent.journal =
      { sent.agent.journal with events := sent.agent.journal.events.filter (·.msgId != event.msgId), dirty := false } := by
    rw [hrun]
    exact hjournal
  have hsent : sent.agent.journal.events = event :: rest := hevents.trans he
  rw [hsent] at hleft
  have htables : (run R H (round store now clock ip s) s).servers (H c.peer) = db := by
    rw [hrun]
    exact Function.update_self ..
  refine ⟨⟨⟨{ c with inflight := none }, by rw [hrun]; rfl, rfl, hw, hack⟩, ?_, ?_, ?_⟩, by rw [hleft], ?_⟩
  · right
    rw [hleft]
    exact hdest
  · rw [htables]
    exact hrow
  · intro other ho
    rw [hleft] at ho
    exact h.times other (by rw [he]; exact (List.mem_filter.1 ho).1)
  · intro other ho hid
    obtain ⟨receipt, hr, hrid, hpay⟩ := (admission_receipts hdb).1
    rw [← he] at ho
    -- events with one id have one payload
    have hdrawn := (hi.agent.memory other ho).1
    rw [hid, (hi.agent.memory event hm).1] at hdrawn
    refine ⟨receipt, by rwa [htables], hrid.trans hid.symm, ?_⟩
    rw [hpay, ← Option.some.inj hdrawn]
    rfl

/-- a round leaves an empty journal empty -/
theorem round_empty [DecidableEq σ] {s : St σ} {clock : ℤ} (h : Ready H destination clock s)
    (store : CapabilityGrantStore) (now : ℤ) (ip : String) (he : s.agent.journal.events = []) :
    (run R H (round store now clock ip s) s).agent.journal.events = [] ∧
      Ready H destination clock (run R H (round store now clock ip s) s) := by
  obtain ⟨c, hc, rfl, hw, hack⟩ := h.connection
  obtain ⟨hok, hevents, hdest, hclean⟩ := bind_saved (a := s.agent) h.owned
  rw [he] at hevents
  have hrun : run R H (round store now clock ip s) s = s.setAgent (bindDestination s.agent c.peer .saved).1 := by
    have hp : (pendingEvents (bindDestination s.agent c.peer .saved).1).bind List.head? = none := by
      simp [pendingEvents, hclean, hevents]
    have hretry : step R H s (.retry store now .saved .saved) =
        s.setAgent (bindDestination s.agent c.peer .saved).1 := by
      simp [step, hc, St.retry, hw, hok, hack, hp]
    simp only [run, round, List.foldl_cons, List.foldl_nil, hretry]
    simp [step, St.setAgent]
  rw [hrun]
  refine ⟨hevents, ⟨c, hc, rfl, hw, hack⟩, .inr hdest, h.server, ?_⟩
  intro event hm
  have hm : event ∈ (bindDestination s.agent c.peer .saved).1.journal.events := hm
  rw [hevents] at hm
  exact absurd hm List.not_mem_nil

/-! ## Every round -/

theorem Arrived.run [DecidableEq σ] {event : Event} (ops : List (Op σ)) {s : St σ} (h : Arrived H destination event s) :
    Arrived H destination event (run R H ops s) := by
  induction ops generalizing s with
  | nil => exact h
  | cons op ops ih => exact ih (h.step op)

theorem Arrived.rounds [DecidableEq σ] {event : Event} {store : CapabilityGrantStore} {now clock : ℤ} {ip : String} (n : ℕ)
    {s : St σ} (h : Arrived H destination event s) :
    Arrived H destination event (rounds R H store now clock ip n s) := by
  induction n generalizing s with
  | zero => exact h
  | succ n ih => exact ih (h.run _)

theorem rounds_deliver [DecidableEq σ] {clock : ℤ} (store : CapabilityGrantStore) (now : ℤ) (ip : String) (n : ℕ)
    {s : St σ} (hi : Identities H drawn owner s) (ha : Admitted s) (h : Ready H destination clock s)
    (hn : s.agent.journal.events.length ≤ n) :
    (rounds R H store now clock ip n s).agent.journal.events = [] ∧
      ∀ event ∈ s.agent.journal.events,
        Arrived H destination event (rounds R H store now clock ip n s) := by
  induction n generalizing s drawn owner with
  | zero =>
    have he : s.agent.journal.events = [] := List.length_eq_zero_iff.1 (Nat.le_zero.1 hn)
    refine ⟨he, fun event hm => ?_⟩
    rw [he] at hm
    exact absurd hm List.not_mem_nil
  | succ n ih =>
    obtain ⟨drawn', owner', hi'⟩ := identities_run (R := R) (round store now clock ip s) hi
    have ha' := admitted_run (R := R) (H := H) (round store now clock ip s) ha
    cases he : s.agent.journal.events with
    | nil =>
      obtain ⟨hempty, hready⟩ := round_empty (R := R) h store now ip he
      exact ⟨(ih hi' ha' hready (by simp [hempty])).1, fun event hm => absurd hm List.not_mem_nil⟩
    | cons first rest =>
      obtain ⟨hready, hevents, hthere⟩ := round_delivers (R := R) hi ha h store now ip he
      have hlen : ((first :: rest).filter (·.msgId != first.msgId)).length ≤ n := by
        rw [he, List.length_cons] at hn
        have hle := List.length_filter_le (fun event : Event => event.msgId != first.msgId) rest
        simp only [bne_self_eq_false, Bool.false_eq_true, not_false_eq_true, List.filter_cons_of_neg]
        omega
      obtain ⟨hempty, harrived⟩ := ih hi' ha' hready (by rwa [hevents])
      refine ⟨hempty, fun event hm => ?_⟩
      by_cases hid : event.msgId = first.msgId
      · exact (hthere event hm hid).rounds n
      · refine harrived event ?_
        rw [hevents]
        exact List.mem_filter.2 ⟨hm, by simpa using hid⟩

/-- **The journal can always be emptied.** From whatever state a run leaves, an agent that is connected to its journal's
destination, which knows the server and is not minutes behind, has every pending event admitted with its own time and change
and an empty journal after as many undisturbed rounds as there are events. -/
theorem delivers_events [DecidableEq σ] (R : ℤ → Bool) (H : String → σ) (rows : σ → Option ServerRow)
    (base : BitVec 32) (store : CapabilityGrantStore) (now now' : ℤ) (flush : Flush) (ops : List (Op σ))
    (destination : String) (grants : CapabilityGrantStore) (later clock : ℤ) (ip : String)
    (h : Ready H destination clock (run R H ops (start rows base store now now' flush))) :
    let s := run R H ops (start rows base store now now' flush)
    let t := rounds R H grants later clock ip s.agent.journal.events.length s
    t.agent.journal.events = [] ∧ ∀ event ∈ s.agent.journal.events, Arrived H destination event t := by
  intro s t
  obtain ⟨drawn, owner, hi⟩ := identities_run (R := R) ops
    (identities_start (H := H) rows base store now now' flush)
  exact rounds_deliver grants later ip _ hi (admitted_run ops (admitted_start rows base store now now' flush)) h (Nat.le_refl _)

theorem granted_ready : Ready id "d" 103000000000 granted where
  connection :=
    ⟨⟨"d", true, true, none, granted.connection.elim [] Connection.transitions⟩, by decide +kernel, rfl, rfl, rfl⟩
  owned := by decide +kernel
  server := by decide +kernel
  times := by decide +kernel

theorem grant_delivered :
    let s := run (fun _ => true) id granting (start (fun _ => some ⟨"web", 0⟩) 0 [] 50 50 .saved)
    let t := rounds (fun _ => true) id terminalGrant 103 103000000000 "192.0.2.7" s.agent.journal.events.length s
    t.agent.journal.events = [] ∧ ∀ event ∈ s.agent.journal.events, Arrived id "d" event t :=
  delivers_events (fun _ => true) id (fun _ => some ⟨"web", 0⟩) 0 [] 50 50 .saved granting "d" terminalGrant 103
    103000000000 "192.0.2.7" granted_ready

end ServerBee.CapabilityEvents
