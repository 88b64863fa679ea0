/-
What a run of capability events admits: every identity once, with one content, and at one server.

A receipt is written with its audit rows and captures and stays. A frame that comes again finds the receipt of its id, whose
content is the frame's own because ids are not reused.
-/
import Mathlib.Data.List.Nodup
import ServerBee.CapabilityEvents.Identities

namespace ServerBee.CapabilityEvents

open ServerBee.Capabilities

variable {σ : Type} {R : ℤ → Bool} {H : String → σ}

/-! ## What a receipt stands for -/

/-- what an audit row says of the change, without the server's name and the peer's address -/
def AuditLog.entry (row : AuditLog) : String × String × Option ℤ × Option String × Option String × ℤ :=
  (row.action, row.cap, row.expiresAt, row.grantedBy, row.reason, row.createdAt)

/-- the audit rows of the admission -/
def Receipt.entries (receipt : Receipt) : List (String × String × Option ℤ × Option String × Option String × ℤ) :=
  receipt.payload.2.map fun change => (auditLog "" "" receipt.occurredAt change).entry

/-- the captures of the admission -/
def Receipt.captures (receipt : Receipt) : List ℤ := (receipt.payload.2.filter alerting).map fun _ => receipt.occurredAt

theorem entry_auditLog (name ip : String) (occurredAt : ℤ) (change : CapabilityChangeEvent) :
    (auditLog name ip occurredAt change).entry = (auditLog "" "" occurredAt change).entry := rfl

/-! ## One admission -/

/-- an admitted frame has its receipt already, or gets it now -/
theorem admission_cases {db db' : Database} {ip : String} {now : ℤ} {frame : Frame}
    (h : admission db ip now frame = some db') :
    (∃ old ∈ db.receipts, old.msgId = frame.msgId ∧ old.payload = frame.payload ∧
      db' = updateCapabilitiesMirror db frame.capabilities) ∨
    ∃ receipt row, (∀ old ∈ db.receipts, old.msgId ≠ frame.msgId) ∧ receipt.msgId = frame.msgId ∧
      receipt.payload = frame.payload ∧ db'.receipts = db.receipts ++ [receipt] ∧
      db'.audits = db.audits ++ frame.changes.map (auditLog row ip receipt.occurredAt) ∧
      db'.captures = db.captures ++ receipt.captures := by
  unfold admission at h
  cases hf : db.receipts.find? (·.msgId == frame.msgId) with
  | some old =>
    simp only [hf] at h
    split at h
    · rename_i hp
      refine .inl ⟨old, List.mem_of_find?_eq_some hf, by simpa using List.find?_some hf, hp, ?_⟩
      exact (Option.some.inj h).symm
    · cases h
  | none =>
    simp only [hf] at h
    split at h
    · cases h
    · obtain ⟨row, _, rfl⟩ := Option.map_eq_some_iff.1 h
      refine .inr ⟨⟨frame.msgId, frame.payload, (frame.occurredAt.map nanos).getD now⟩, row.name, ?_, ?_⟩
      swap
      · exact ⟨rfl, rfl, rfl, rfl, rfl⟩
      intro old ho
      simpa using List.find?_eq_none.1 hf old ho

/-- a server's receipts are of frames that were sent to it, one for each id, and its audit rows and captures are theirs -/
structure Admissions (frames : List (σ × Frame)) (server : σ) (db : Database) : Prop where
  sent : ∀ receipt ∈ db.receipts, ∃ frame ∈ frames, frame.1 = server ∧ frame.2.msgId = receipt.msgId ∧
    frame.2.payload = receipt.payload
  once : (db.receipts.map Receipt.msgId).Nodup
  audits : db.audits.map AuditLog.entry = db.receipts.flatMap Receipt.entries
  captures : db.captures = db.receipts.flatMap Receipt.captures

theorem Admissions.mirror {frames : List (σ × Frame)} {server : σ} {db : Database} (h : Admissions frames server db)
    (capabilities : BitVec 32) : Admissions frames server (updateCapabilitiesMirror db capabilities) :=
  ⟨h.sent, h.once, h.audits, h.captures⟩

theorem Admissions.insert {frames : List (σ × Frame)} {server : σ} {db db' : Database} (h : Admissions frames server db)
    {ip : String} {now : ℤ} {frame : Frame} (hf : (server, frame) ∈ frames) (ha : admission db ip now frame = some db') :
    Admissions frames server db' := by
  rcases admission_cases ha with ⟨old, _, _, _, rfl⟩ | ⟨receipt, row, hnew, hid, hpay, hr, hau, hca⟩
  · exact h.mirror _
  · refine ⟨?_, ?_, ?_, ?_⟩
    · intro r hm
      rw [hr] at hm
      rcases List.mem_append.1 hm with hm | hm
      · exact h.sent r hm
      · rw [List.mem_singleton.1 hm]
        exact ⟨(server, frame), hf, rfl, hid.symm, hpay.symm⟩
    · rw [hr, List.map_append, List.nodup_append]
      refine ⟨h.once, List.nodup_singleton _, ?_⟩
      intro i hi j hj hij
      obtain ⟨old, ho, rfl⟩ := List.mem_map.1 hi
      obtain ⟨new, hn, rfl⟩ := List.mem_map.1 hj
      rw [List.mem_singleton.1 hn, hid] at hij
      exact hnew old ho hij
    · have hc : frame.changes = receipt.payload.2 := by rw [hpay]; rfl
      rw [hau, hr, List.map_append, List.flatMap_append, h.audits, hc, List.map_map]
      simp only [List.flatMap_cons, List.flatMap_nil, List.append_nil]
      rfl
    · rw [hca, hr, List.flatMap_append, h.captures]
      simp only [List.flatMap_cons, List.flatMap_nil, List.append_nil]

/-- an admitted frame leaves its receipt, and no receipt goes -/
theorem admission_receipts {db db' : Database} {ip : String} {now : ℤ} {frame : Frame}
    (h : admission db ip now frame = some db') :
    (∃ receipt ∈ db'.receipts, receipt.msgId = frame.msgId ∧ receipt.payload = frame.payload) ∧
      ∀ receipt ∈ db.receipts, receipt ∈ db'.receipts := by
  rcases admission_cases h with ⟨old, ho, hid, hpay, rfl⟩ | ⟨receipt, row, _, hid, hpay, hr, _, _⟩
  · exact ⟨⟨old, ho, hid, hpay⟩, fun r hm => hm⟩
  · rw [hr]
    exact ⟨⟨receipt, List.mem_append_right _ (List.mem_singleton.2 rfl), hid, hpay⟩,
      fun r hm => List.mem_append_left _ hm⟩

/-! ## Every step -/

/-- every server's tables are as they should be, and an acknowledgement stands for a receipt of its server -/
structure Admitted (s : St σ) : Prop where
  servers : ∀ server, Admissions s.frames server (s.servers server)
  acks : ∀ ack ∈ s.acks, ∃ receipt ∈ (s.servers ack.1).receipts, receipt.msgId = ack.2

/-- an agent's step: it may send more frames -/
structure AgentStep (s s' : St σ) : Prop where
  frames : ∀ frame ∈ s.frames, frame ∈ s'.frames
  acks : s'.acks = s.acks
  servers : s'.servers = s.servers

theorem AgentStep.refl (s : St σ) : AgentStep s s := ⟨fun _ hf => hf, rfl, rfl⟩

theorem Admitted.agentStep {s s' : St σ} (h : Admitted s) (ht : AgentStep s s') : Admitted s' := by
  refine ⟨fun server => ?_, ?_⟩
  · have hs := h.servers server
    rw [ht.servers]
    refine ⟨fun receipt hr => ?_, hs.once, hs.audits, hs.captures⟩
    obtain ⟨frame, hf, hp⟩ := hs.sent receipt hr
    exact ⟨frame, ht.frames frame hf, hp⟩
  · rw [ht.acks, ht.servers]
    exact h.acks

theorem AgentStep.announce (s : St σ) (c : Connection) (server : σ) (capabilities : BitVec 32)
    (temporary : List TemporaryGrant) (changes : List CapabilityChangeEvent) :
    AgentStep s ((s.setConnection c).announce server capabilities temporary changes) :=
  ⟨fun _ hf => List.mem_append_left _ hf, rfl, rfl⟩

theorem retry_agentStep (s : St σ) (c : Connection) (store : CapabilityGrantStore) (now : ℤ) (bind discard : Flush) :
    AgentStep s (s.retry H c store now bind discard) := by
  rcases retry_cases (H := H) s c store now bind discard with hr | hr | ⟨_, hr⟩ |
    ⟨event, _, temporary, _, _, hr⟩ <;> rw [hr]
  · exact .refl s
  · exact ⟨fun _ hf => hf, rfl, rfl⟩
  · exact ⟨fun _ hf => hf, rfl, rfl⟩
  · exact ⟨fun _ hf => List.mem_append_left _ hf, rfl, rfl⟩

theorem transition_agentStep (s : St σ) (c : Connection) (store : CapabilityGrantStore) (now : ℤ) (discard : Flush) :
    AgentStep s (s.transition H c store now discard) := by
  rcases transition_cases (H := H) s c store now discard with hr |
    ⟨rest, hr | ⟨capabilities, temporary, changes, hr | ⟨_, hr⟩⟩⟩ <;> rw [hr]
  · exact .refl s
  · exact ⟨fun _ hf => hf, rfl, rfl⟩
  · exact .announce ..
  · exact ⟨fun _ hf => List.mem_append_left _ hf, rfl, rfl⟩

theorem acknowledge_agentStep (s : St σ) (c : Connection) (msgId : ℕ) (flush : Flush) :
    AgentStep s (s.acknowledge c msgId flush) := by
  rcases acknowledge_cases s c msgId flush with hr | hr | hr <;> rw [hr]
  · exact .refl s
  · exact ⟨fun _ hf => hf, rfl, rfl⟩
  · exact ⟨fun _ hf => hf, rfl, rfl⟩

/-- the tables of one server are replaced by others that keep its receipts -/
theorem Admitted.update [DecidableEq σ] {s : St σ} (h : Admitted s) {server : σ} {db : Database}
    (hd : Admissions s.frames server db) (hk : ∀ receipt ∈ (s.servers server).receipts, receipt ∈ db.receipts)
    {acks : List (σ × ℕ)}
    (ha : ∀ ack ∈ acks, ack ∈ s.acks ∨ ack.1 = server ∧ ∃ receipt ∈ db.receipts, receipt.msgId = ack.2) :
    Admitted { s with servers := Function.update s.servers server db, acks := acks } := by
  refine ⟨fun other => ?_, fun ack hm => ?_⟩
  · by_cases ho : other = server
    · subst ho
      simpa using hd
    · simpa [Function.update_of_ne ho] using h.servers other
  · rcases ha ack hm with hold | ⟨rfl, hnew⟩
    · obtain ⟨receipt, hr, hid⟩ := h.acks ack hold
      refine ⟨receipt, ?_, hid⟩
      by_cases ho : ack.1 = server
      · subst ho
        simpa using hk receipt hr
      · simpa [Function.update_of_ne ho] using hr
    · simpa using hnew

theorem Admitted.deliver [DecidableEq σ] {s : St σ} (h : Admitted s) {server : σ} {frame : Frame}
    (hf : (server, frame) ∈ s.frames) (ip : String) (now : ℤ) (commits : Bool) :
    Admitted (s.deliver server frame ip now commits) := by
  unfold St.deliver
  split
  · exact h
  · rename_i db hd
    have ha : admission (s.servers server) ip now frame = some db := by
      split at hd
      · exact hd
      · cases hd
    obtain ⟨⟨receipt, hr, hid, _⟩, hkeep⟩ := admission_receipts ha
    refine h.update ((h.servers server).insert hf ha) hkeep ?_
    intro ack hm
    split at hm
    · rcases List.mem_append.1 hm with hm | hm
      · exact .inl hm
      · rw [List.mem_singleton.1 hm]
        exact .inr ⟨rfl, receipt, hr, hid⟩
    · exact .inl hm

theorem Admitted.step [DecidableEq σ] {s : St σ} (h : Admitted s) (op : Op σ) : Admitted (step R H s op) := by
  cases op with
  | tick store now flush => exact h.agentStep ⟨fun _ hf => hf, rfl, rfl⟩
  | connect peer welcome => exact h.agentStep ⟨fun _ hf => hf, rfl, rfl⟩
  | disconnect => exact h.agentStep ⟨fun _ hf => hf, rfl, rfl⟩
  | retry store now bind discard =>
    exact step_retry h fun c _ => h.agentStep (retry_agentStep s c store now bind discard)
  | transition store now discard =>
    exact step_transition h fun c _ => h.agentStep (transition_agentStep s c store now discard)
  | deliver i ip now commits => exact step_deliver h fun frame hf => h.deliver hf ip now commits
  | acknowledge i flush =>
    exact step_acknowledge h fun ack _ c _ _ => h.agentStep (acknowledge_agentStep s c ack.2 flush)
  | rename server name =>
    have hd := h.servers server
    have hn : Admissions s.frames server ((s.servers server).rename name) := ⟨hd.sent, hd.once, hd.audits, hd.captures⟩
    exact h.update hn (fun _ hr => hr) (fun _ ha => .inl ha)
  | restart base store now now' flush => exact h.agentStep ⟨fun _ hf => hf, rfl, rfl⟩

theorem admitted_run [DecidableEq σ] (ops : List (Op σ)) {s : St σ} (h : Admitted s) :
    Admitted (run R H ops s) := by
  induction ops generalizing s with
  | nil => exact h
  | cons op ops ih => exact ih (h.step op)

theorem admitted_start (rows : σ → Option ServerRow) (base : BitVec 32) (store : CapabilityGrantStore) (now now' : ℤ)
    (flush : Flush) : Admitted (start rows base store now now' flush) := by
  refine ⟨fun server => ⟨fun receipt hr => ?_, List.nodup_nil, rfl, rfl⟩, fun ack ha => absurd ha List.not_mem_nil⟩
  exact absurd hr List.not_mem_nil

/-- a frame and a receipt with one id are of one server and have one payload -/
theorem receipt_of_frame {drawn : List Payload} {owner : ℕ → Option σ} {s : St σ} (hi : Identities H drawn owner s)
    (ha : Admitted s) {frame : σ × Frame} (hf : frame ∈ s.frames) {server : σ} {receipt : Receipt}
    (hr : receipt ∈ (s.servers server).receipts) (hid : receipt.msgId = frame.2.msgId) :
    server = frame.1 ∧ receipt.payload = frame.2.payload := by
  obtain ⟨sent, hs, rfl, hsid, hpay⟩ := (ha.servers server).sent receipt hr
  obtain ⟨hd, ho⟩ := hi.frames frame hf
  obtain ⟨hd', ho'⟩ := hi.frames sent hs
  rw [hsid, hid] at hd' ho'
  rw [ho] at ho'
  rw [hd] at hd'
  exact ⟨(Option.some.inj ho').symm, hpay.symm.trans (Option.some.inj hd').symm⟩

/-- **Every identity is admitted once.** In every run, whatever the network delivers again, loses or reorders, whichever
flushes fail and wherever agent and server stop: each server has one receipt for an id, its audit rows and captures are those
of its receipts, each once and in their order, an id that one server admits no other server does, no frame is refused for
the content of its id, and only what is admitted is acknowledged. -/
theorem admits_once [DecidableEq σ] (R : ℤ → Bool) (H : String → σ) (rows : σ → Option ServerRow)
    (base : BitVec 32) (store : CapabilityGrantStore) (now now' : ℤ) (flush : Flush) (ops : List (Op σ)) :
    let s := run R H ops (start rows base store now now' flush)
    (∀ server, ((s.servers server).receipts.map Receipt.msgId).Nodup ∧
      (s.servers server).audits.map AuditLog.entry = (s.servers server).receipts.flatMap Receipt.entries ∧
      (s.servers server).captures = (s.servers server).receipts.flatMap Receipt.captures) ∧
    (∀ frame ∈ s.frames, ∀ server, ∀ receipt ∈ (s.servers server).receipts, receipt.msgId = frame.2.msgId →
      server = frame.1 ∧ receipt.payload = frame.2.payload) ∧
    (∀ server, ∀ receipt ∈ (s.servers server).receipts, ∃ frame ∈ s.frames, frame.1 = server ∧
      frame.2.msgId = receipt.msgId ∧ frame.2.payload = receipt.payload) ∧
    ∀ ack ∈ s.acks, ∃ receipt ∈ (s.servers ack.1).receipts, receipt.msgId = ack.2 := by
  intro s
  obtain ⟨drawn, owner, hi⟩ := identities_run (R := R) ops
    (identities_start (H := H) rows base store now now' flush)
  have ha : Admitted s := admitted_run ops (admitted_start rows base store now now' flush)
  refine ⟨fun server => ?_, fun frame hf server receipt hr hid => ?_, fun server => (ha.servers server).sent, ha.acks⟩
  · exact ⟨(ha.servers server).once, (ha.servers server).audits, (ha.servers server).captures⟩
  · exact receipt_of_frame hi ha hf hr hid

end ServerBee.CapabilityEvents
