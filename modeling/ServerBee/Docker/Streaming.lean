/-
Whether docker data flows exactly while someone watches.

Every first viewer and every last viewer is a decision, and a decision's messages follow it later. `pending` are the messages in
the channel and then those of the decisions, in the order of the decisions: handled in this order they leave the agent as
the set of viewers wants it (`Inv.settled`). A handler that sends may overtake messages of older decisions for the other
of the two streams, not for the same one; and no viewer may come between the emptied set and the removal of its key (`Guarded`).
-/
import ServerBee.Docker.Model

namespace ServerBee.Docker

open ServerBee.Lib

/-! ## Messages -/

inductive Stream where
  | stats
  | events
deriving DecidableEq, Repr

/-- the stream that a message switches, and how -/
def ServerMessage.effect : ServerMessage → Stream × Bool
  | .dockerStartStats _ => (.stats, true)
  | .dockerStopStats => (.stats, false)
  | .dockerEventsStart => (.events, true)
  | .dockerEventsStop => (.events, false)

def DockerSubsystem.on (d : DockerSubsystem) : Stream → Bool
  | .stats => d.statsInterval.isSome
  | .events => d.eventStream

theorem on_handle (d : DockerSubsystem) (msg : ServerMessage) :
    (d.handle msg).on = Function.update d.on msg.effect.1 msg.effect.2 := by
  funext stream
  cases msg <;> cases stream <;> rfl

theorem settle_start (r : Stream → Bool) (stream : Stream) : settle r (startMsgs.map ServerMessage.effect) stream = true := by
  cases stream <;> rfl

theorem settle_stop (r : Stream → Bool) (stream : Stream) : settle r (stopMsgs.map ServerMessage.effect) stream = false := by
  cases stream <;> rfl

/-- what a handler has still to send -/
def Handler.unsent : Handler → List ServerMessage
  | .idle => []
  | .scanned => []
  | .removing => stopMsgs
  | .sending msgs => msgs

variable {C : Type} [DecidableEq C]

def State.pending (s : State C) : List ServerMessage := s.channel ++ s.order.flatMap fun c => (s.handler c).unsent

/-- the streams that the agent will have on when everything is sent and handled -/
def State.final (s : State C) : Stream → Bool := settle s.agent.on (s.pending.map ServerMessage.effect)

/-- no viewer comes while a key is about to be removed, and no message overtakes one for the same stream -/
def Guarded (s : State C) : Op C → Prop
  | .subscribe _ => ∀ c ∈ s.order, s.handler c ≠ .removing
  | .next c =>
    match s.handler c with
    | .sending (msg :: _) =>
      ∀ older ∈ s.order.takeWhile (· ≠ c), ∀ msg' ∈ (s.handler older).unsent, msg'.effect.1 ≠ msg.effect.1
    | _ => True
  | _ => True

instance (s : State C) (op : Op C) : Decidable (Guarded s op) := by
  unfold Guarded
  split
  · infer_instance
  · split <;> infer_instance
  · infer_instance

/-! ## The invariant -/

structure Inv (s : State C) : Prop where
  tracked : s.viewers.getD ∅ = s.subscribed
  removing : ∀ c, s.handler c = .removing → s.subscribed = ∅
  nodup : s.order.Nodup
  mem_order : ∀ c, c ∈ s.order ↔ (s.handler c).unsent ≠ []
  settled : ∀ stream, s.final stream = decide s.subscribed.Nonempty

section Steps

variable {s : State C} {c : C}

theorem unsent_update_of_not_mem {order : List C} (hc : c ∉ order) (handler : C → Handler) (h : Handler) :
    (order.flatMap fun c' => (Function.update handler c h c').unsent) = order.flatMap fun c' => (handler c').unsent := by
  refine List.flatMap_congr fun c' hc' => ?_
  rw [Function.update_of_ne]
  rintro rfl
  exact hc hc'

omit [DecidableEq C] in
theorem Inv.not_mem (hi : Inv s) (hc : (s.handler c).unsent = []) : c ∉ s.order := fun hmem => (hi.mem_order c).1 hmem hc

/-- a handler with nothing to send moves to another such place -/
theorem Inv.quietly (hi : Inv s) (hc : (s.handler c).unsent = []) {h : Handler} (hh : h.unsent = []) :
    Inv { s with handler := Function.update s.handler c h } where
  tracked := hi.tracked
  removing c' hc' := by
    change Function.update s.handler c h c' = .removing at hc'
    show s.subscribed = ∅
    by_cases heq : c' = c
    · subst heq
      rw [Function.update_self] at hc'
      rw [hc'] at hh
      cases hh
    · rw [Function.update_of_ne heq] at hc'
      exact hi.removing c' hc'
  nodup := hi.nodup
  mem_order c' := by
    show c' ∈ s.order ↔ (Function.update s.handler c h c').unsent ≠ []
    by_cases heq : c' = c
    · subst heq
      rw [Function.update_self, hh]
      exact iff_of_false (hi.not_mem hc) (fun hno => hno rfl)
    · rw [Function.update_of_ne heq]
      exact hi.mem_order c'
  settled stream := by
    have hsame := unsent_update_of_not_mem (hi.not_mem hc) s.handler h
    rw [← hi.settled stream]
    unfold State.final State.pending
    rw [hsame]

/-- a decision: the set changes between empty and not empty, and the messages for it are promised -/
theorem Inv.decided (hi : Inv s) (hc : (s.handler c).unsent = []) {viewers : Option (Finset C)} {set : Finset C} {h : Handler}
    (htracked : viewers.getD ∅ = set) (hremoving : set.Nonempty → ∀ c, s.handler c ≠ .removing)
    (hnew : h = .removing → set = ∅) (hunsent : h.unsent ≠ [])
    (hsettled : ∀ r stream, settle r (h.unsent.map ServerMessage.effect) stream = decide set.Nonempty) :
    Inv (decided { s with viewers, subscribed := set } c h) where
  tracked := htracked
  removing c' hc' := by
    by_cases heq : c' = c
    · subst heq
      exact hnew ((Function.update_self ..).symm.trans hc')
    · have hold : s.handler c' = .removing := (Function.update_of_ne heq ..).symm.trans hc'
      by_contra hne
      exact hremoving (Finset.nonempty_iff_ne_empty.2 hne) c' hold
  nodup := by
    refine List.nodup_append.2 ⟨hi.nodup, List.nodup_singleton c, ?_⟩
    rintro c' hc' _ hmem rfl
    exact hi.not_mem hc (List.mem_singleton.1 hmem ▸ hc')
  mem_order c' := by
    show c' ∈ s.order ++ [c] ↔ (Function.update s.handler c h c').unsent ≠ []
    rw [List.mem_append, List.mem_singleton]
    by_cases heq : c' = c
    · subst heq
      rw [Function.update_self]
      exact iff_of_true (Or.inr rfl) hunsent
    · rw [Function.update_of_ne heq, ← hi.mem_order c']
      exact or_iff_left heq
  settled stream := by
    have hpending : (Docker.decided { s with viewers, subscribed := set } c h).pending = s.pending ++ h.unsent := by
      show s.channel ++ (s.order ++ [c]).flatMap (fun c' => (Function.update s.handler c h c').unsent) = _
      rw [List.flatMap_append, unsent_update_of_not_mem (hi.not_mem hc), List.flatMap_singleton, Function.update_self,
        ← List.append_assoc]
      rfl
    show settle s.agent.on _ stream = _
    rw [hpending, List.map_append, settle_append]
    exact hsettled _ stream

omit [DecidableEq C] in
/-- the set changes, but not whether it is empty -/
theorem Inv.setChanged (hi : Inv s) {viewers : Option (Finset C)} {set : Finset C} (htracked : viewers.getD ∅ = set)
    (hsame : set.Nonempty ↔ s.subscribed.Nonempty) : Inv { s with viewers, subscribed := set } where
  tracked := htracked
  removing c' hc' := by
    rw [← Finset.not_nonempty_iff_eq_empty, hsame, hi.removing c' hc']
    exact Finset.not_nonempty_empty
  nodup := hi.nodup
  mem_order := hi.mem_order
  settled stream := by
    rw [show decide set.Nonempty = decide s.subscribed.Nonempty from decide_eq_decide.2 hsame]
    exact hi.settled stream

theorem Inv.addViewer (hi : Inv s) (hidle : s.handler c = .idle) (hguard : ∀ c ∈ s.order, s.handler c ≠ .removing) :
    Inv (addViewer s c) := by
  have hunsent : (s.handler c).unsent = [] := by rw [hidle]; rfl
  unfold Docker.addViewer
  dsimp only
  rw [hi.tracked]
  split_ifs with hempty
  · refine hi.decided hunsent rfl (fun _ c' hc' => ?_) (fun hno => by cases hno) (by decide) fun r stream => ?_
    · exact hguard c' ((hi.mem_order c').2 (by rw [hc']; decide)) hc'
    · rw [show Handler.unsent (.sending startMsgs) = startMsgs from rfl, settle_start, eq_comm, decide_eq_true_eq]
      exact Finset.insert_nonempty _ _
  · exact hi.setChanged rfl (iff_of_true (Finset.insert_nonempty _ _) (Finset.nonempty_iff_ne_empty.2 hempty))

theorem Inv.removeViewer (hi : Inv s) (hc : (s.handler c).unsent = []) : Inv (removeViewer s c) := by
  have hidle := hi.quietly hc (h := .idle) rfl
  unfold Docker.removeViewer
  dsimp only
  cases hviewers : s.viewers with
  | none =>
    have hempty : s.subscribed = ∅ := by
      rw [← hi.tracked, hviewers]
      rfl
    refine hidle.setChanged ?_ ?_
    · show Option.getD _ ∅ = s.subscribed.erase c
      rw [hempty]
      rfl
    · rw [hempty, Finset.erase_empty]
  | some set =>
    have hset : set = s.subscribed := by
      rw [← hi.tracked, hviewers]
      rfl
    dsimp only
    split_ifs with hempty
    · have hnothing : (Function.update s.handler c .idle c).unsent = [] := by
        rw [Function.update_self]
        rfl
      refine hidle.decided (c := c) hnothing (by rw [← hset]; rfl) (fun hne => ?_)
        (fun _ => by rw [← hset]; exact hempty) (by decide) fun r stream => ?_
      · rw [← hset, hempty] at hne
        exact absurd hne Finset.not_nonempty_empty
      · rw [show Handler.unsent .removing = stopMsgs from rfl, settle_stop, ← hset, hempty]
        rfl
    · refine hidle.setChanged (by rw [← hset]; rfl) ?_
      rw [← hset]
      have hne := Finset.nonempty_iff_ne_empty.2 hempty
      exact iff_of_true hne (hne.mono (Finset.erase_subset c set))

/-- the decisions before and after one of them -/
theorem Inv.order_eq (hi : Inv s) (hmem : c ∈ s.order) :
    ∃ older newer, s.order = older ++ c :: newer ∧ c ∉ older ∧ c ∉ newer ∧ s.order.takeWhile (· ≠ c) = older := by
  obtain ⟨older, newer, horder⟩ := List.append_of_mem hmem
  have hnodup := horder ▸ hi.nodup
  rw [List.nodup_append] at hnodup
  obtain ⟨-, hnewer, hdisjoint⟩ := hnodup
  have hold : c ∉ older := fun hmem => hdisjoint c hmem c List.mem_cons_self rfl
  refine ⟨older, newer, horder, hold, (List.nodup_cons.1 hnewer).1, ?_⟩
  rw [horder, List.takeWhile_append_of_pos, List.takeWhile_cons_of_neg (by simp), List.append_nil]
  intro c' hc'
  simp only [ne_eq, decide_not, Bool.not_eq_true', decide_eq_false_iff_not]
  rintro rfl
  exact hold hc'

/-- a message goes to the channel, past messages for the other stream only -/
theorem final_send {older newer : List C} {msg : ServerMessage} {msgs : List ServerMessage} {order : List C} {h : Handler}
    (horder : s.order = older ++ c :: newer) (hc : (s.handler c).unsent = msg :: msgs)
    (hkinds : ∀ c' ∈ older, ∀ msg' ∈ (s.handler c').unsent, msg'.effect.1 ≠ msg.effect.1)
    (hrest : (order.flatMap fun c' => (Function.update s.handler c h c').unsent) =
      (older.flatMap fun c' => (s.handler c').unsent) ++ msgs ++ newer.flatMap fun c' => (s.handler c').unsent) :
    ({ s with channel := s.channel ++ [msg], handler := Function.update s.handler c h, order } : State C).final = s.final := by
  unfold State.final State.pending
  rw [hrest, horder, List.flatMap_append, List.flatMap_cons, hc]
  simp only [List.map_append, List.map_cons, List.map_nil, List.append_assoc, settle_append, settle_cons,
    settle_nil, List.cons_append]
  have hmove := settle_move (settle s.agent.on (s.channel.map ServerMessage.effect)) msg.effect
    ((older.flatMap fun c' => (s.handler c').unsent).map ServerMessage.effect) [] ?_
  · rw [List.append_nil, settle_cons] at hmove
    rw [← hmove, settle_append, settle_cons, settle_nil]
  · intro effect heffect
    obtain ⟨msg', hmsg', rfl⟩ := List.mem_map.1 heffect
    obtain ⟨c', hc', hmsg'⟩ := List.mem_flatMap.1 hmsg'
    exact hkinds c' hc' msg' hmsg'

theorem Inv.sendLast (hi : Inv s) {msg : ServerMessage} (hc : s.handler c = .sending [msg])
    (hguard : ∀ older ∈ s.order.takeWhile (· ≠ c), ∀ msg' ∈ (s.handler older).unsent, msg'.effect.1 ≠ msg.effect.1) :
    Inv { s with channel := s.channel ++ [msg], handler := Function.update s.handler c .idle, order := s.order.erase c } := by
  have hunsent : (s.handler c).unsent = [msg] := by rw [hc]; rfl
  obtain ⟨older, newer, horder, hold, hnew, htake⟩ := hi.order_eq ((hi.mem_order c).2 (by rw [hunsent]; exact List.cons_ne_nil _ _))
  have herase : s.order.erase c = older ++ newer := by
    rw [horder, List.erase_append_right _ hold, List.erase_cons_head]
  refine ⟨hi.tracked, ?_, hi.nodup.erase c, ?_, ?_⟩
  · intro c' hc'
    change Function.update s.handler c .idle c' = .removing at hc'
    by_cases heq : c' = c
    · subst heq
      rw [Function.update_self] at hc'
      cases hc'
    · rw [Function.update_of_ne heq] at hc'
      exact hi.removing c' hc'
  · intro c'
    show c' ∈ s.order.erase c ↔ (Function.update s.handler c .idle c').unsent ≠ []
    rw [hi.nodup.mem_erase_iff]
    by_cases heq : c' = c
    · subst heq
      rw [Function.update_self]
      exact iff_of_false (fun hno => hno.1 rfl) (fun hno => hno rfl)
    · rw [Function.update_of_ne heq, ← hi.mem_order c']
      exact and_iff_right heq
  · intro stream
    rw [final_send horder hunsent (htake ▸ hguard) ?_]
    · exact hi.settled stream
    · rw [herase, List.flatMap_append, unsent_update_of_not_mem hold, unsent_update_of_not_mem hnew, List.append_nil]

theorem Inv.sendNext (hi : Inv s) {msg : ServerMessage} {msgs : List ServerMessage} (hc : s.handler c = .sending (msg :: msgs))
    (hne : msgs ≠ [])
    (hguard : ∀ older ∈ s.order.takeWhile (· ≠ c), ∀ msg' ∈ (s.handler older).unsent, msg'.effect.1 ≠ msg.effect.1) :
    Inv { s with channel := s.channel ++ [msg], handler := Function.update s.handler c (.sending msgs) } := by
  have hunsent : (s.handler c).unsent = msg :: msgs := by rw [hc]; rfl
  have hmem : c ∈ s.order := (hi.mem_order c).2 (by rw [hunsent]; exact List.cons_ne_nil _ _)
  obtain ⟨older, newer, horder, hold, hnew, htake⟩ := hi.order_eq hmem
  refine ⟨hi.tracked, ?_, hi.nodup, ?_, ?_⟩
  · intro c' hc'
    change Function.update s.handler c (.sending msgs) c' = .removing at hc'
    by_cases heq : c' = c
    · subst heq
      rw [Function.update_self] at hc'
      cases hc'
    · rw [Function.update_of_ne heq] at hc'
      exact hi.removing c' hc'
  · intro c'
    show c' ∈ s.order ↔ (Function.update s.handler c (.sending msgs) c').unsent ≠ []
    by_cases heq : c' = c
    · subst heq
      rw [Function.update_self]
      exact iff_of_true hmem hne
    · rw [Function.update_of_ne heq]
      exact hi.mem_order c'
  · intro stream
    rw [final_send horder hunsent (htake ▸ hguard) ?_]
    · exact hi.settled stream
    · rw [horder, List.flatMap_append, List.flatMap_cons, unsent_update_of_not_mem hold, unsent_update_of_not_mem hnew,
        Function.update_self, List.append_assoc]
      rfl

/-- the key of the empty set goes, and the messages are the ones that were promised -/
theorem Inv.removeKey (hi : Inv s) (hc : s.handler c = .removing) :
    Inv { s with viewers := none, handler := Function.update s.handler c (.sending stopMsgs) } := by
  have hunsent (c' : C) : (Function.update s.handler c (.sending stopMsgs) c').unsent = (s.handler c').unsent := by
    by_cases heq : c' = c
    · subst heq
      rw [Function.update_self, hc]
      rfl
    · rw [Function.update_of_ne heq]
  refine ⟨(hi.removing c hc).symm, ?_, hi.nodup, ?_, ?_⟩
  · intro c' _
    exact hi.removing c hc
  · intro c'
    show c' ∈ s.order ↔ (Function.update s.handler c (.sending stopMsgs) c').unsent ≠ []
    rw [hunsent]
    exact hi.mem_order c'
  · intro stream
    rw [← hi.settled stream]
    unfold State.final State.pending
    simp only [hunsent]

theorem Inv.next (hi : Inv s) (hguard : Guarded s (.next c)) : Inv (next s c) := by
  unfold Docker.next
  cases hc : s.handler c with
  | idle => exact hi
  | scanned => exact hi.removeViewer (by rw [hc]; rfl)
  | removing => exact hi.removeKey hc
  | sending msgs =>
    simp only [Guarded, hc] at hguard
    match msgs, hc, hguard with
    | [], hc, _ => exact hi.quietly (by rw [hc]; rfl) rfl
    | [msg], hc, hguard => exact hi.sendLast hc hguard
    | msg :: msg' :: msgs, hc, hguard => exact hi.sendNext hc (List.cons_ne_nil _ _) hguard

theorem Inv.step (hi : Inv s) {op : Op C} (hguard : Guarded s op) : Inv (step s op) := by
  cases op with
  | subscribe c =>
    simp only [Docker.step]
    split_ifs with hfree
    · exact hi.addViewer hfree.1 hguard
    · exact hi
  | unsubscribe c =>
    simp only [Docker.step]
    split_ifs with hfree
    · exact hi.removeViewer (by rw [hfree.1]; rfl)
    · exact hi
  | disconnect c =>
    simp only [Docker.step]
    split_ifs with hfree hwatching
    · have hscanned := hi.quietly (c := c) (h := .scanned) (by rw [hfree.1]; rfl) rfl
      exact { hscanned with settled := hscanned.settled }
    · rw [hi.tracked] at hwatching
      rw [Finset.erase_eq_of_notMem hwatching]
      exact { hi with settled := hi.settled }
    · exact hi
  | next c => exact hi.next hguard
  | handle =>
    simp only [Docker.step]
    cases hchannel : s.channel with
    | nil => exact hi
    | cons msg channel =>
      refine { hi with settled := fun stream => ?_ }
      rw [← hi.settled stream]
      unfold State.final State.pending
      rw [hchannel, List.cons_append, List.map_cons, settle_cons, on_handle]

end Steps

/-! ## Runs -/

/-- every handler is done, and the agent has handled every message -/
def Quiet (s : State C) : Prop := s.channel = [] ∧ ∀ c, s.handler c = .idle

/-- the set is the subscribed connections, and in quiet the agent streams exactly when there are some -/
structure Follows (s : State C) : Prop where
  tracked : ∀ c, c ∈ s.viewers.getD ∅ ↔ c ∈ s.subscribed
  stats : Quiet s → (s.agent.statsInterval.isSome ↔ s.subscribed.Nonempty)
  events : Quiet s → (s.agent.eventStream ↔ s.subscribed.Nonempty)

section Runs

omit [DecidableEq C] in
theorem Inv.init : Inv (State.init : State C) where
  tracked := rfl
  removing _ h := by cases h
  nodup := List.nodup_nil
  mem_order _ := iff_of_false List.not_mem_nil fun hno => hno rfl
  settled stream := by cases stream <;> rfl

omit [DecidableEq C] in
theorem Inv.final_eq_on {s : State C} (hi : Inv s) (hquiet : Quiet s) (stream : Stream) :
    s.agent.on stream = decide s.subscribed.Nonempty := by
  have horder : s.order = [] := List.eq_nil_iff_forall_not_mem.2 fun c hc => (hi.mem_order c).1 hc (by rw [hquiet.2 c]; rfl)
  rw [← hi.settled stream, State.final, State.pending, hquiet.1, horder]
  rfl

omit [DecidableEq C] in
theorem Inv.follows {s : State C} (hi : Inv s) : Follows s where
  tracked c := by rw [hi.tracked]
  stats hquiet := by
    have hon := hi.final_eq_on hquiet .stats
    rw [show s.agent.statsInterval.isSome = s.agent.on .stats from rfl, hon, decide_eq_true_eq]
  events hquiet := by
    have hon := hi.final_eq_on hquiet .events
    rw [show s.agent.eventStream = s.agent.on .events from rfl, hon, decide_eq_true_eq]

/-- **Docker streaming.** When no viewer comes between an emptied set and the removal of its key, and no handler's message
overtakes one for the same stream, the set is always the subscribed connections, and whenever nothing is in progress the
agent polls stats and streams events exactly when some connection is subscribed -/
theorem streaming_follows_viewers (ops : List (Op C)) (hguard : Along step Guarded (State.init : State C) ops) :
    Along step (fun s op => Follows (step s op)) State.init ops :=
  Along.of_invariant (I := Inv) (fun _ _ hi hg => hi.step hg) (fun _ _ hi hg => (hi.step hg).follows) Inv.init hguard

/-- the connection whose handler an operation runs -/
def Op.actor : Op C → Option C
  | .subscribe c => some c
  | .unsubscribe c => some c
  | .disconnect c => some c
  | .next c => some c
  | .handle => none

theorem removeViewer_handler {s : State C} {c c' : C} (h : c' ≠ c) : (removeViewer s c).handler c' = s.handler c' := by
  unfold removeViewer decided
  dsimp only
  split
  · exact Function.update_of_ne h ..
  · split_ifs
    · exact (Function.update_of_ne h ..).trans (Function.update_of_ne h ..)
    · exact Function.update_of_ne h ..

/-- an operation leaves the handlers of the other connections alone -/
theorem step_handler {s : State C} {op : Op C} {c : C} (h : op.actor ≠ some c) : (step s op).handler c = s.handler c := by
  cases op with
  | subscribe c' =>
    have hne : c ≠ c' := fun heq => h (congrArg some heq.symm)
    simp only [step]
    split_ifs
    · unfold addViewer decided
      dsimp only
      split_ifs
      · exact Function.update_of_ne hne ..
      · rfl
    · rfl
  | unsubscribe c' =>
    have hne : c ≠ c' := fun heq => h (congrArg some heq.symm)
    simp only [step]
    split_ifs
    · exact removeViewer_handler hne
    · rfl
  | disconnect c' =>
    have hne : c ≠ c' := fun heq => h (congrArg some heq.symm)
    simp only [step]
    split_ifs
    · exact Function.update_of_ne hne ..
    · rfl
    · rfl
  | next c' =>
    have hne : c ≠ c' := fun heq => h (congrArg some heq.symm)
    simp only [step]
    unfold next
    split
    · rfl
    · exact removeViewer_handler hne
    · exact Function.update_of_ne hne ..
    · exact Function.update_of_ne hne ..
    · exact Function.update_of_ne hne ..
    · exact Function.update_of_ne hne ..
  | handle =>
    simp only [step]
    split <;> rfl

theorem runs_handler {ops : List (Op C)} {c : C} (h : ∀ op ∈ ops, op.actor ≠ some c) (s : State C) :
    (runs step s ops).handler c = s.handler c := by
  induction ops generalizing s with
  | nil => rfl
  | cons op ops ih =>
    rw [runs_cons, ih (fun op' hop' => h op' (List.mem_cons_of_mem _ hop')), step_handler (h op List.mem_cons_self)]

end Runs

theorem streaming_follows_viewers_once :
    Along step (fun s op => Follows (step s op)) (State.init : State ℕ)
      [.subscribe 1, .next 1, .next 1, .handle, .handle, .unsubscribe 1, .next 1, .next 1, .next 1, .handle, .handle] :=
  streaming_follows_viewers _ (by decide)

/-- (1) a viewer comes between the emptied set and the removal of its key, and is lost; (2) the messages of an old last viewer
come after those of a new first one -/
def lostViewer : List (Op ℕ) :=
  [.subscribe 1, .next 1, .next 1, .unsubscribe 1, .subscribe 2, .next 1, .next 1, .next 1, .next 2, .next 2, .handle, .handle,
    .handle, .handle, .handle, .handle]

def lateStop : List (Op ℕ) :=
  [.subscribe 1, .next 1, .next 1, .unsubscribe 1, .next 1, .subscribe 2, .next 2, .next 2, .next 1, .next 1, .handle, .handle,
    .handle, .handle, .handle, .handle]

theorem viewer_without_data :
    (runs step State.init lostViewer).viewers = none ∧ 2 ∈ (runs step State.init lostViewer).subscribed ∧
      ¬ Follows (runs step State.init lostViewer) ∧
    (runs step State.init lateStop).agent = ⟨none, false⟩ ∧ 2 ∈ (runs step State.init lateStop).subscribed ∧
      ¬ Follows (runs step State.init lateStop) := by
  have hviewers : (runs step State.init lostViewer).viewers = none := by decide
  have hlost : 2 ∈ (runs step State.init lostViewer).subscribed := by decide
  have hagent : (runs step State.init lateStop).agent = ⟨none, false⟩ := by decide
  have hlate : 2 ∈ (runs step State.init lateStop).subscribed := by decide
  refine ⟨hviewers, hlost, fun h => ?_, hagent, hlate, fun h => ?_⟩
  · have hmem := (h.tracked 2).2 hlost
    rw [hviewers] at hmem
    exact absurd hmem (Finset.notMem_empty 2)
  · have hidle (c : ℕ) : (runs step State.init lateStop).handler c = .idle := by
      by_cases hc : c = 1 ∨ c = 2
      · rcases hc with rfl | rfl <;> decide
      · refine runs_handler (fun op hop hactor => hc ?_) State.init
        have hactors : ∀ op ∈ lateStop, ∀ c ∈ op.actor, c = 1 ∨ c = 2 := by decide
        exact hactors op hop c hactor
    have hstats := (h.stats ⟨by decide, hidle⟩).2 ⟨2, hlate⟩
    rw [hagent] at hstats
    cases hstats

end ServerBee.Docker
