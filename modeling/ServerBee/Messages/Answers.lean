/-
A request that waits for an agent ends once (`service/agent_manager.rs`: `register_pending_request`, `cancel_pending_request`,
`dispatch_pending_response`, `finish_connection_removal`).

Of all handlers only those that dispatch touch the requests, and a message answers at most one (`Answered`). From this, what a
step can do to the requests (`step_cases`); the invariant and the theorems use nothing else. A waiter is one call that waits: no
two registrations have the same.
-/
import ServerBee.Messages.Model

namespace ServerBee.Messages

open ServerBee.Lib

variable {δ : Type} {A : ℕ} {s s' : State δ}

/-! ## The requests of a state -/

/-- the requests that wait, and those that were answered -/
def State.requests (s : State δ) : (String → Option Pending) × List (Pending × AgentMessage δ) := (s.pending, s.delivered)

/-- what a message does to the requests -/
def Answered (A : ℕ) (s s' : State δ) : Prop :=
  s'.requests = s.requests ∨ ∃ msgId request message, s.pending msgId = some request ∧ request.serverId = A ∧
    s'.requests = (Function.update s.pending msgId none, s.delivered ++ [(request, message)])

theorem Answered.after (h : Answered A s s') {u : State δ} (hu : u.requests = s'.requests) : Answered A s u := by
  rcases h with hsame | ⟨msgId, request, message, hwaits, howner, hafter⟩
  · exact Or.inl (hu.trans hsame)
  · exact Or.inr ⟨msgId, request, message, hwaits, howner, hu.trans hafter⟩

theorem Answered.before (h : Answered A s s') {u : State δ} (hu : s.requests = u.requests) : Answered A u s' := by
  obtain ⟨hpending, hdelivered⟩ : s.pending = u.pending ∧ s.delivered = u.delivered := Prod.ext_iff.1 hu
  rcases h with hsame | ⟨msgId, request, message, hwaits, howner, hafter⟩
  · exact Or.inl (hsame.trans hu)
  · rw [hpending] at hwaits
    rw [hpending, hdelivered] at hafter
    exact Or.inr ⟨msgId, request, message, hwaits, howner, hafter⟩

theorem answered_dispatch (A : ℕ) (s : State δ) (msgId : String) (message : AgentMessage δ) :
    Answered A s (s.dispatchPendingResponse A msgId message).1 := by
  unfold State.dispatchPendingResponse
  split
  next request hrequest =>
    split
    next howner => exact Or.inr ⟨msgId, request, message, hrequest, howner, rfl⟩
    next => exact Or.inl rfl
  next => exact Or.inl rfl

theorem answered_dispatchOption (A : ℕ) (s : State δ) (msgId : Option String) (message : AgentMessage δ) :
    Answered A s (s.dispatch A msgId message) := by
  cases msgId with
  | none => exact Or.inl rfl
  | some msgId => exact answered_dispatch A s msgId message

/-- a dispatch that is refused leaves the state -/
theorem dispatch_refused {msgId : String} {message : AgentMessage δ} (h : (s.dispatchPendingResponse A msgId message).2 = false) :
    (s.dispatchPendingResponse A msgId message).1 = s := by
  unfold State.dispatchPendingResponse at h ⊢
  split at h
  next request hrequest =>
    split at h
    next => cases h
    next hno => simp [hno]
  next => simp

/-! ## Handlers -/

@[simp] theorem requests_modifyOwn (s : State δ) (A : ℕ) (f : Own δ → Own δ) : (s.modifyOwn A f).requests = s.requests := rfl

@[simp] theorem requests_broadcast (s : State δ) (A : ℕ) (message : BrowserMessage δ) :
    (s.broadcast A message).requests = s.requests := rfl

theorem requests_sendTerminal (s : State δ) (A : ℕ) (sessionId : String) (event : TerminalSessionEvent) :
    (s.sendTerminal A sessionId event).requests = s.requests := by
  unfold State.sendTerminal
  split
  · split <;> rfl
  · rfl

theorem requests_unregister (s : State δ) (A : ℕ) (sessionId : String) :
    (s.unregisterAgentTerminalSession A sessionId).requests = s.requests := by
  unfold State.unregisterAgentTerminalSession
  split
  · split <;> rfl
  · rfl

theorem requests_setJobs (s : State δ) (result : UpgradeJobs.Jobs × Option UpgradeJobs.UpgradeJob) :
    (s.setJobs result).requests = s.requests := by
  unfold State.setJobs
  split <;> rfl

section Handlers

variable (env : Env δ) (s) (A)

theorem requests_succeedUpgrade (agentVersion : String) : (succeedUpgrade env s A agentVersion).requests = s.requests := by
  unfold succeedUpgrade
  split
  · split
    · exact requests_setJobs s _
    · rfl
  · rfl

theorem requests_onSystemInfo (info : SystemInfo δ) (agentLocalCapabilities : Option ℕ) (temporary : List δ) :
    (onSystemInfo env s A info agentLocalCapabilities temporary).requests = s.requests := by
  have hstore : ∀ u : State δ, (storeSystemInfo env u A info).requests = u.requests := by
    intro u
    unfold storeSystemInfo
    split <;> rfl
  unfold onSystemInfo
  split
  · rfl
  · rw [requests_modifyOwn, requests_succeedUpgrade, requests_broadcast]
    cases agentLocalCapabilities with
    | none => exact hstore _
    | some capabilities => exact hstore _

theorem answered_onTaskResult (msgId : String) (result : TaskResult) : Answered A s (onTaskResult env s A msgId result) := by
  have hdispatch := answered_dispatch A s result.taskId (.taskResult msgId result)
  unfold onTaskResult
  split
  next s' dispatched heq =>
    rw [heq] at hdispatch
    split_ifs
    · exact hdispatch
    · exact hdispatch
    · exact hdispatch.after rfl
    · exact hdispatch

theorem requests_denyUpgrade (capability : String) (reason : UpgradeJobs.CapabilityDeniedReason) :
    (denyUpgrade env s A capability reason).requests = s.requests := by
  unfold denyUpgrade
  split
  · split
    · exact requests_setJobs s _
    · rfl
  · rfl

theorem answered_onCapabilityDenied (msgId sessionId : Option String) (capability : String)
    (reason : UpgradeJobs.CapabilityDeniedReason) :
    Answered A s (onCapabilityDenied env s A msgId sessionId capability reason) := by
  have htail : ∀ u : State δ, (onCapabilityDenied env u A none sessionId capability reason).requests = u.requests := by
    intro u
    have hdenied := requests_denyUpgrade A u env capability reason
    cases sessionId with
    | none => exact hdenied
    | some sessionId => exact (requests_unregister _ A sessionId).trans hdenied
  cases msgId with
  | none => exact Or.inl (htail s)
  | some taskId => exact (answered_onTaskResult A s env taskId _).after (htail _)

/-- an error is told to the call that waits for the end of the upload, or else to the one that waits for an acknowledgement -/
theorem answered_wakeUpload (id : ℕ) (frame : Transfers.Frame) (message : AgentMessage δ) :
    Answered A s (wakeUpload s A id frame message) := by
  cases frame with
  | uploadAck offset => exact answered_dispatch A s _ message
  | uploadComplete => exact answered_dispatch A s _ message
  | uploadError error =>
    have hcomplete := answered_dispatch A s (uploadCompleteKey id) message
    simp only [wakeUpload]
    split
    next => exact hcomplete
    next hno =>
      rw [dispatch_refused (Bool.eq_false_of_not_eq_true hno)]
      exact answered_dispatch A s _ message
  | _ => exact Or.inl rfl

theorem answered_onFileTransfer (id : ℕ) (frame : Transfers.Frame) : Answered A s (onFileTransfer env s A id frame) := by
  unfold onFileTransfer
  split
  · exact (answered_wakeUpload A _ id frame _).before rfl
  · exact Or.inl rfl

theorem requests_onTracerouteRoundUpdate (update : RoundUpdate δ) : (onTracerouteRoundUpdate s A update).requests = s.requests := by
  unfold onTracerouteRoundUpdate
  split
  · split <;> rfl
  · rfl

theorem requests_onUpgradeProgress (jobId : Option ℕ) (targetVersion : String) (stage : UpgradeJobs.UpgradeStage) :
    (onUpgradeProgress s A jobId targetVersion stage).requests = s.requests := by
  unfold onUpgradeProgress
  simp only
  split
  · split <;> rfl
  · rfl

theorem requests_onUnlockResults (egressIp : String) (results : List δ) :
    (onUnlockResults env s A egressIp results).requests = s.requests := by
  unfold onUnlockResults
  split
  · split
    · rfl
    · split <;> rfl
  · rfl

theorem requests_onBlocklistAck (results : List BlocklistAckItem) : (onBlocklistAck s A results).requests = s.requests := by
  unfold onBlocklistAck
  induction results generalizing s with
  | nil => rfl
  | cons item results ih => exact ih _

theorem answered_handleAgentMessage (message : AgentMessage δ) : Answered A s (handleAgentMessage env s A message) := by
  cases message with
  | systemInfo msgId info capabilities temporary => exact Or.inl (requests_onSystemInfo A s env info capabilities temporary)
  | capabilitiesChanged msgId capabilities temporary changes =>
    left
    simp only [handleAgentMessage, onCapabilitiesChanged]
    split <;> rfl
  | securityEvent payload =>
    left
    simp only [handleAgentMessage]
    split <;> rfl
  | taskResult msgId result => exact answered_onTaskResult A s env msgId result
  | terminal sessionId event => exact Or.inl (requests_sendTerminal s A sessionId event)
  | capabilityDenied msgId sessionId capability reason => exact answered_onCapabilityDenied A s env msgId sessionId capability reason
  | unlockResults egressIp results => exact Or.inl (requests_onUnlockResults A s env egressIp results)
  | reply kind msgId content => exact answered_dispatch A s msgId _
  | fileTransfer transferId frame => exact answered_onFileTransfer A s env transferId frame
  | dockerInfo msgId info => exact ((answered_dispatchOption A (s.modifyOwn A _) msgId _).after rfl).before rfl
  | dockerContainers msgId containers => exact ((answered_dispatchOption A (s.modifyOwn A _) msgId _).after rfl).before rfl
  | dockerStats stats =>
    left
    simp only [handleAgentMessage]
    split <;> rfl
  | dockerUnavailable msgId => exact (answered_dispatchOption A ((s.modifyOwn A _).broadcast A _) msgId _).before rfl
  | ipChanged ipv4 ipv6 =>
    left
    simp only [handleAgentMessage, onIpChanged]
    split_ifs <;> rfl
  | tracerouteResult requestId hops completed error => exact Or.inl (requests_onTracerouteRoundUpdate A _ _)
  | tracerouteRoundUpdate update => exact Or.inl (requests_onTracerouteRoundUpdate A s update)
  | upgradeProgress msgId jobId targetVersion stage => exact Or.inl (requests_onUpgradeProgress A s jobId targetVersion stage)
  | upgradeResult msgId jobId targetVersion stage error backupPath => exact Or.inl (requests_setJobs s _)
  | blocklistAck results => exact Or.inl (requests_onBlocklistAck A s results)
  | blocklistResetAck ok reason =>
    left
    simp only [handleAgentMessage]
    split <;> rfl
  | _ => exact Or.inl rfl

end Handlers

/-! ## Steps -/

/-- the request that an operation registers, under its id -/
def Op.registers : Op δ → Option (String × Pending)
  | .registerPendingRequest serverId msgId waiter => some (msgId, ⟨serverId, waiter⟩)
  | _ => none

theorem requests_applyRound (env : Env δ) (s : State δ) (update : RoundUpdate δ) (hops : List δ) :
    (applyRound env s update hops).requests = s.requests := by
  unfold applyRound insertCompletedRecord
  split
  next => rfl
  next =>
    simp only [requests_broadcast]
    split_ifs <;> rfl

/-- **What a step does to the requests:** one is registered, or a message of its server answers one, or some no longer wait. -/
theorem step_cases (s : State δ) (op : Op δ) :
    (∃ msgId request, op.registers = some (msgId, request) ∧
      (step s op).requests = (Function.update s.pending msgId (some request), s.delivered)) ∨
    (∃ env message msgId request answer, op = .message request.serverId env message ∧ s.pending msgId = some request ∧
      (step s op).requests = (Function.update s.pending msgId none, s.delivered ++ [(request, answer)])) ∨
    (op.registers = none ∧ (step s op).delivered = s.delivered ∧
      ∀ msgId request, (step s op).pending msgId = some request → s.pending msgId = some request) := by
  have hquiet : ∀ {u : State δ}, u.requests = s.requests →
      u.delivered = s.delivered ∧ ∀ msgId request, u.pending msgId = some request → s.pending msgId = some request := by
    intro u hu
    obtain ⟨hpending, hdelivered⟩ : u.pending = s.pending ∧ u.delivered = s.delivered := Prod.ext_iff.1 hu
    exact ⟨hdelivered, fun msgId request h => by rwa [hpending] at h⟩
  cases op with
  | registerPendingRequest serverId msgId waiter => exact Or.inl ⟨msgId, ⟨serverId, waiter⟩, rfl, rfl⟩
  | message serverId env message =>
    rcases answered_handleAgentMessage serverId s env message with hsame | ⟨msgId, request, answer, hwaits, rfl, hafter⟩
    · exact Or.inr (Or.inr ⟨rfl, hquiet hsame⟩)
    · exact Or.inr (Or.inl ⟨env, message, msgId, request, answer, rfl, hwaits, hafter⟩)
  | cancelPendingRequest msgId =>
    refine Or.inr (Or.inr ⟨rfl, rfl, fun msgId' request h => ?_⟩)
    have hne : msgId' ≠ msgId := by
      rintro rfl
      simp [step] at h
    simpa [step, hne] using h
  | disconnected serverId =>
    refine Or.inr (Or.inr ⟨rfl, rfl, fun msgId request h => ?_⟩)
    exact (Option.filter_eq_some_iff.1 h).1
  | enriched k env hops =>
    refine Or.inr (Or.inr ⟨rfl, hquiet ?_⟩)
    simp only [step]
    split
    · exact requests_applyRound env _ _ hops
    · rfl
  | startUpgrade serverId jobId targetVersion now =>
    refine Or.inr (Or.inr ⟨rfl, hquiet ?_⟩)
    simp only [step]
    split <;> rfl
  | sweepUpgrade serverId now => exact Or.inr (Or.inr ⟨rfl, hquiet (requests_setJobs s _)⟩)
  | _ => exact Or.inr (Or.inr ⟨rfl, hquiet rfl⟩)

/-! ## Runs -/

/-- the requests that a run registers -/
def registered (ops : List (Op δ)) : List (String × Pending) := ops.filterMap Op.registers

def waiters (registered : List (String × Pending)) : List ℕ := registered.map fun r => r.2.waiter

/-- the answers that a waiter got -/
def State.answers (s : State δ) (waiter : ℕ) : List (Pending × AgentMessage δ) :=
  s.delivered.filter fun d => d.1.waiter == waiter

/-- a call whose request has ended, one way or the other -/
def State.Ended (s : State δ) (waiter : ℕ) : Prop := ∀ msgId request, s.pending msgId = some request → request.waiter ≠ waiter

theorem eq_of_waiter {l : List (String × Pending)} (hfresh : (waiters l).Nodup) {r r' : String × Pending} (hr : r ∈ l) (hr' : r' ∈ l)
    (heq : r.2.waiter = r'.2.waiter) : r = r' :=
  List.inj_on_of_nodup_map hfresh hr hr' heq

theorem requests_eq {pending : String → Option Pending} {delivered : List (Pending × AgentMessage δ)}
    (h : s.requests = (pending, delivered)) : s.pending = pending ∧ s.delivered = delivered :=
  Prod.ext_iff.1 h

theorem update_eq_some {f : String → Option Pending} {msgId msgId' : String} {entry : Option Pending} {request : Pending}
    (h : Function.update f msgId entry msgId' = some request) :
    (msgId' = msgId ∧ entry = some request) ∨ (msgId' ≠ msgId ∧ f msgId' = some request) := by
  by_cases hid : msgId' = msgId
  · subst hid
    rw [Function.update_self] at h
    exact Or.inl ⟨rfl, h⟩
  · rw [Function.update_of_ne hid] at h
    exact Or.inr ⟨hid, h⟩

structure Linear (registered : List (String × Pending)) (s : State δ) : Prop where
  waiting : ∀ msgId request, s.pending msgId = some request → (msgId, request) ∈ registered
  known : ∀ d ∈ s.delivered, ∃ msgId, (msgId, d.1) ∈ registered
  ended : ∀ d ∈ s.delivered, s.Ended d.1.waiter
  once : (s.delivered.map fun d => d.1.waiter).Nodup

theorem linear_new : Linear [] (State.new : State δ) := ⟨nofun, nofun, nofun, List.nodup_nil⟩

variable {l : List (String × Pending)}

theorem Linear.register (h : Linear l s) {msgId : String} {request : Pending} (hfresh : (waiters (l ++ [(msgId, request)])).Nodup)
    (hs : s'.requests = (Function.update s.pending msgId (some request), s.delivered)) :
    Linear (l ++ [(msgId, request)]) s' := by
  obtain ⟨hpending, hdelivered⟩ := requests_eq hs
  have hnew : request.waiter ∉ waiters l := by
    rw [waiters, List.map_append, List.nodup_append] at hfresh
    exact fun hmem => hfresh.2.2 _ hmem _ (List.mem_singleton_self _) rfl
  have hcases : ∀ msgId' request', s'.pending msgId' = some request' →
      (msgId', request') = (msgId, request) ∨ s.pending msgId' = some request' := by
    intro msgId' request' hwaits
    rw [hpending] at hwaits
    rcases update_eq_some hwaits with ⟨rfl, ⟨⟩⟩ | ⟨-, hold⟩
    · exact Or.inl rfl
    · exact Or.inr hold
  refine ⟨fun msgId' request' hwaits => ?_, ?_, ?_, ?_⟩
  · rcases hcases msgId' request' hwaits with heq | hold
    · exact List.mem_append_right _ (List.mem_singleton.2 heq)
    · exact List.mem_append_left _ (h.waiting msgId' request' hold)
  · rw [hdelivered]
    intro d hd
    obtain ⟨msgId', hmem⟩ := h.known d hd
    exact ⟨msgId', List.mem_append_left _ hmem⟩
  · rw [hdelivered]
    intro d hd msgId' request' hwaits
    rcases hcases msgId' request' hwaits with heq | hold
    · cases heq
      obtain ⟨msgId', hmem⟩ := h.known d hd
      intro hsame
      exact hnew (hsame ▸ List.mem_map_of_mem (f := fun r : String × Pending => r.2.waiter) hmem)
    · exact h.ended d hd msgId' request' hold
  · rw [hdelivered]
    exact h.once

theorem Linear.answer (h : Linear l s) (hfresh : (waiters l).Nodup) {msgId : String} {request : Pending} {answer : AgentMessage δ}
    (hwaits : s.pending msgId = some request)
    (hs : s'.requests = (Function.update s.pending msgId none, s.delivered ++ [(request, answer)])) : Linear l s' := by
  obtain ⟨hpending, hdelivered⟩ := requests_eq hs
  have hold : ∀ msgId' request', s'.pending msgId' = some request' → msgId' ≠ msgId ∧ s.pending msgId' = some request' := by
    intro msgId' request' hwaits'
    rw [hpending] at hwaits'
    rcases update_eq_some hwaits' with ⟨-, ⟨⟩⟩ | hother
    exact hother
  refine ⟨fun msgId' request' hwaits' => h.waiting _ _ (hold msgId' request' hwaits').2, ?_, ?_, ?_⟩
  · rw [hdelivered]
    intro d hd
    rcases List.mem_append.1 hd with hd | hd
    · exact h.known d hd
    · cases List.mem_singleton.1 hd
      exact ⟨msgId, h.waiting msgId request hwaits⟩
  · rw [hdelivered]
    intro d hd msgId' request' hwaits'
    obtain ⟨hid, hwaits'⟩ := hold msgId' request' hwaits'
    rcases List.mem_append.1 hd with hd | hd
    · exact h.ended d hd msgId' request' hwaits'
    · cases List.mem_singleton.1 hd
      intro hsame
      have heq := eq_of_waiter hfresh (h.waiting _ _ hwaits') (h.waiting _ _ hwaits) hsame
      exact hid (congrArg Prod.fst heq)
  · rw [hdelivered, List.map_append, List.nodup_append]
    refine ⟨h.once, List.nodup_singleton _, ?_⟩
    intro w hw w' hw' heq
    obtain ⟨d, hd, rfl⟩ := List.mem_map.1 hw
    exact h.ended d hd msgId request hwaits (heq.trans (List.mem_singleton.1 hw')).symm

theorem Linear.forget (h : Linear l s) (hdelivered : s'.delivered = s.delivered)
    (hpending : ∀ msgId request, s'.pending msgId = some request → s.pending msgId = some request) : Linear l s' := by
  refine ⟨fun msgId request hwaits => h.waiting _ _ (hpending _ _ hwaits), hdelivered ▸ h.known, ?_, hdelivered ▸ h.once⟩
  rw [hdelivered]
  exact fun d hd msgId request hwaits => h.ended d hd msgId request (hpending _ _ hwaits)

theorem registered_append (ops ops' : List (Op δ)) : registered (ops ++ ops') = registered ops ++ registered ops' :=
  List.filterMap_append

theorem registered_singleton (op : Op δ) : registered [op] = op.registers.toList := by
  unfold registered
  cases h : op.registers <;> simp [h]

theorem linear_run {ops : List (Op δ)} (hfresh : (waiters (registered ops)).Nodup) :
    Linear (registered ops) (runs step State.new ops) := by
  induction ops using List.reverseRecOn with
  | nil => exact linear_new
  | append_singleton ops op ih =>
    rw [registered_append, registered_singleton] at hfresh ⊢
    have hbefore : (waiters (registered ops)).Nodup := by
      rw [waiters, List.map_append] at hfresh
      exact hfresh.of_append_left
    rw [runs_append]
    rcases step_cases (runs step State.new ops) op with ⟨msgId, request, hop, hs⟩ | ⟨env, message, msgId, request, answer, rfl, hwaits, hs⟩ |
      ⟨hop, hdelivered, hpending⟩
    · rw [hop] at hfresh ⊢
      exact (ih hbefore).register hfresh hs
    · simp only [Op.registers, Option.toList_none, List.append_nil]
      exact (ih hbefore).answer hbefore hwaits hs
    · rw [hop, Option.toList_none, List.append_nil]
      exact (ih hbefore).forget hdelivered hpending

/-- who has ended stays so, and gets no more answers -/
theorem ended_step {w : ℕ} (hended : s.Ended w) {op : Op δ} (hother : ∀ r, op.registers = some r → r.2.waiter ≠ w) :
    (step s op).Ended w ∧ (step s op).answers w = s.answers w := by
  rcases step_cases s op with ⟨msgId, request, hop, hs⟩ | ⟨env, message, msgId, request, answer, -, hwaits, hs⟩ |
    ⟨-, hdelivered, hpending⟩
  · obtain ⟨hpending, hdelivered⟩ := requests_eq hs
    refine ⟨fun msgId' request' hwaits => ?_, congrArg (List.filter _) hdelivered⟩
    rw [hpending] at hwaits
    rcases update_eq_some hwaits with ⟨-, ⟨⟩⟩ | ⟨-, hold⟩
    · exact hother _ hop
    · exact hended msgId' request' hold
  · obtain ⟨hpending, hdelivered⟩ := requests_eq hs
    refine ⟨fun msgId' request' hwaits' => ?_, ?_⟩
    · rw [hpending] at hwaits'
      rcases update_eq_some hwaits' with ⟨-, ⟨⟩⟩ | ⟨-, hold⟩
      exact hended msgId' request' hold
    · have hne : request.waiter ≠ w := hended msgId request hwaits
      rw [State.answers, hdelivered, List.filter_append]
      simp [State.answers, hne]
  · exact ⟨fun msgId request hwaits => hended msgId request (hpending _ _ hwaits), congrArg (List.filter _) hdelivered⟩

theorem ended_run {w : ℕ} (hended : s.Ended w) {ops : List (Op δ)} (hother : ∀ r ∈ registered ops, r.2.waiter ≠ w) :
    (runs step s ops).answers w = s.answers w := by
  induction ops generalizing s with
  | nil => rfl
  | cons op ops ih =>
    have hfirst : ∀ r, op.registers = some r → r.2.waiter ≠ w := fun r hr =>
      hother r (List.mem_filterMap.2 ⟨op, List.mem_cons_self, hr⟩)
    obtain ⟨hstep, hanswers⟩ := ended_step hended hfirst
    have hrest : ∀ r ∈ registered ops, r.2.waiter ≠ w := by
      intro r hr
      obtain ⟨op', hop', hreg⟩ := List.mem_filterMap.1 hr
      exact hother r (List.mem_filterMap.2 ⟨op', List.mem_cons_of_mem _ hop', hreg⟩)
    exact (ih hstep hrest).trans hanswers

/-- a message of the server of the request came while the request waited -/
def AnsweredBy (ops : List (Op δ)) (request : Pending) : Prop :=
  ∃ before env message after msgId, ops = before ++ .message request.serverId env message :: after ∧
    (runs step State.new before).pending msgId = some request

theorem AnsweredBy.append {ops : List (Op δ)} {request : Pending} (h : AnsweredBy ops request) (op : Op δ) :
    AnsweredBy (ops ++ [op]) request := by
  obtain ⟨before, env, message, after, msgId, rfl, hwaits⟩ := h
  exact ⟨before, env, message, after ++ [op], msgId, by simp, hwaits⟩

theorem answered_by {ops : List (Op δ)} {d : Pending × AgentMessage δ} (hd : d ∈ (runs step State.new ops).delivered) :
    AnsweredBy ops d.1 := by
  induction ops using List.reverseRecOn with
  | nil => cases hd
  | append_singleton ops op ih =>
    rw [runs_append] at hd
    rcases step_cases (runs step State.new ops) op with ⟨msgId, request, -, hs⟩ | ⟨env, message, msgId, request, answer, rfl, hwaits, hs⟩ |
      ⟨-, hdelivered, -⟩
    · exact (ih ((requests_eq hs).2 ▸ hd)).append op
    · have hcases : d ∈ (runs step State.new ops).delivered ++ [(request, answer)] := (requests_eq hs).2 ▸ hd
      rcases List.mem_append.1 hcases with hd | hd
      · exact (ih hd).append _
      · cases List.mem_singleton.1 hd
        exact ⟨ops, env, message, [], msgId, rfl, hwaits⟩
    · exact (ih (hdelivered ▸ hd)).append op

/-- **A request ends once.** In every run whose registrations are of different waiters: no waiter has two answers; an answer was
given by a message of the server that the request was registered for, while the request waited; and a waiter that no longer waits
gets nothing from there on, whether it was answered, cancelled, replaced or cut off. -/
theorem requests_end_once (ops : List (Op δ)) (hfresh : (waiters (registered ops)).Nodup) :
    ((runs step State.new ops).delivered.map fun d => d.1.waiter).Nodup ∧
    (∀ d ∈ (runs step State.new ops).delivered, ∃ before env message after msgId,
      ops = before ++ .message d.1.serverId env message :: after ∧ (msgId, d.1) ∈ registered before ∧
        (runs step State.new before).pending msgId = some d.1) ∧
    ∀ before after, ops = before ++ after → ∀ w ∈ waiters (registered before), (runs step State.new before).Ended w →
      (runs step State.new ops).answers w = (runs step State.new before).answers w := by
  refine ⟨(linear_run hfresh).once, fun d hd => ?_, ?_⟩
  · obtain ⟨before, env, message, after, msgId, rfl, hwaits⟩ := answered_by hd
    have hbefore : (waiters (registered before)).Nodup := by
      rw [registered_append, waiters, List.map_append] at hfresh
      exact hfresh.of_append_left
    exact ⟨before, env, message, after, msgId, rfl, (linear_run hbefore).waiting msgId d.1 hwaits, hwaits⟩
  · rintro before after rfl w hw hended
    rw [runs_append]
    refine ended_run hended fun r hr heq => ?_
    rw [registered_append, waiters, List.map_append, List.nodup_append] at hfresh
    exact hfresh.2.2 w hw r.2.waiter (List.mem_map_of_mem hr) heq.symm

/-- a reply of another server passes the request by, and the second reply of its own finds nothing -/
theorem requests_end_once_twice :
    let env : Env Unit := ⟨0, 0, false, false, false, false, false, none, none⟩
    let ops : List (Op Unit) := [.registerPendingRequest 1 "r" 7, .message 2 env (.reply .fileList "r" ()),
      .message 1 env (.reply .fileList "r" ()), .message 1 env (.reply .fileList "r" ())]
    ((runs step State.new ops).delivered.map fun d => d.1.waiter).Nodup ∧
      (runs step State.new ops).delivered = [(⟨1, 7⟩, .reply .fileList "r" ())] := by
  intro env ops
  have hdelivered : (runs step State.new ops).delivered = [(⟨1, 7⟩, .reply .fileList "r" ())] := rfl
  exact ⟨(requests_end_once ops (by decide)).1, hdelivered⟩

end ServerBee.Messages
