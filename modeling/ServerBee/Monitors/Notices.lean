/-
What a service monitor is told about (`monitor_check.rs`).

The row of a monitor is a function of its committed results (`Monitor.since`), and so is what was sent for them (`events`): a
failure is told whenever the failures in a row, with it, exceed `retry_count`, and a success whenever the result before it is
a failure. `Tracks` holds of every state that checks lead to: one call at most for each monitor, a row that is the one of
the results, and every event of the results sent, apart from the one of a call that is committed and has not notified yet.
-/
import Mathlib.Data.Int.Notation
import Mathlib.Data.List.Nodup
import ServerBee.Monitors.Model

namespace ServerBee.Monitors

open ServerBee.Lib

/-! ## Runs of failures -/

/-- the failures in a row with which the results end -/
def failRun (results : List CheckResult) : ℕ := (results.reverse.takeWhile fun result => !result.success).length

theorem failRun_concat (results : List CheckResult) (result : CheckResult) :
    failRun (results ++ [result]) = if result.success then 0 else failRun results + 1 := by
  cases h : result.success <;> simp [failRun, h]

/-- what a result is told as, after the results before it -/
def eventAt (retryCount : Int32) (before : List CheckResult) (result : CheckResult) : Option Event :=
  if result.success then
    if (before.getLast?.map CheckResult.success) = some false then some .recovered else none
  else if Int32.ofNat (failRun (before ++ [result])) > retryCount then some .triggered
  else none

def eventsAfter (told : List CheckResult → CheckResult → Option Event) (before : List CheckResult) :
    List CheckResult → List Event
  | [] => []
  | result :: results => (told before result).toList ++ eventsAfter told (before ++ [result]) results

theorem eventsAfter_append (told : List CheckResult → CheckResult → Option Event) (before results results' : List CheckResult) :
    eventsAfter told before (results ++ results') =
      eventsAfter told before results ++ eventsAfter told (before ++ results) results' := by
  induction results generalizing before with
  | nil => simp [eventsAfter]
  | cons result results ih => simp [eventsAfter, ih]

/-- the events of all results -/
def events (retryCount : Int32) (results : List CheckResult) : List Event := eventsAfter (eventAt retryCount) [] results

theorem events_concat (retryCount : Int32) (results : List CheckResult) (result : CheckResult) :
    events retryCount (results ++ [result]) = events retryCount results ++ (eventAt retryCount results result).toList := by
  simp [events, eventsAfter_append, eventsAfter]

/-! ## The row of a monitor -/

namespace Monitor

/-- the row after these results -/
def since (monitor : Monitor) (results : List CheckResult) : Monitor :=
  { monitor with lastStatus := results.getLast?.map CheckResult.success, consecutiveFailures := Int32.ofNat (failRun results) }

theorem nextFailures_since (monitor : Monitor) (results : List CheckResult) (result : CheckResult) :
    (monitor.since results).nextFailures result = Int32.ofNat (failRun (results ++ [result])) := by
  rw [failRun_concat, nextFailures]
  split
  · rfl
  · exact (Int32.ofNat_add (failRun results) 1).symm

theorem update_since (monitor : Monitor) (results : List CheckResult) (result : CheckResult) :
    (monitor.since results).updateCheckState result.success (Int32.ofNat (failRun (results ++ [result]))) =
      monitor.since (results ++ [result]) := by
  simp [since, updateCheckState]

/-- what is sent for a result is the event of the result -/
theorem notification_since (monitor : Monitor) (results : List CheckResult) (result : CheckResult) :
    ((monitor.since results).notification result (Int32.ofNat (failRun (results ++ [result])))).map (fun sends => sends.2.event) =
      if monitor.notificationGroupId.isSome then eventAt monitor.retryCount results result else none := by
  cases hgroup : monitor.notificationGroupId with
  | none => simp [notification, since, hgroup]
  | some groupId =>
    cases hsuccess : result.success with
    | true =>
      by_cases hlast : results.getLast?.map CheckResult.success = some false
      · simp [notification, since, hgroup, failureCrossedThreshold, recovered, hsuccess, eventAt, context, hlast]
      · simp [notification, since, hgroup, failureCrossedThreshold, recovered, hsuccess, eventAt, hlast]
    | false =>
      by_cases hcrossed : Int32.ofNat (failRun (results ++ [result])) > monitor.retryCount
      · simp [notification, since, hgroup, failureCrossedThreshold, hsuccess, eventAt, context, hcrossed]
      · simp [notification, since, hgroup, failureCrossedThreshold, recovered, hsuccess, eventAt, hcrossed]

end Monitor

/-! ## The calls in flight -/

namespace State

variable {s : State} {k : ℕ} {id : String} {stage stage' : Stage}

/-- the ids of the calls in flight are distinct, and their slots are taken -/
structure Exclusive (s : State) : Prop where
  nodup : (s.calls.map Call.id).Nodup
  slots : ∀ call ∈ s.calls, call.id ∈ s.inFlight

/-- a call in flight, the others, and what becomes of the calls when it takes a step or returns -/
theorem Exclusive.split (h : s.Exclusive) (hcall : s.calls[k]? = some ⟨id, stage⟩) : ∃ before after,
    s.calls = before ++ ⟨id, stage⟩ :: after ∧ (∀ call ∈ before ++ after, call.id ≠ id) ∧
    (∀ stage', (s.advance k id stage').calls = before ++ ⟨id, stage'⟩ :: after) ∧ (s.finish k id).calls = before ++ after := by
  obtain ⟨hk, hget⟩ := List.getElem?_eq_some_iff.1 hcall
  have hsplit : s.calls = s.calls.take k ++ ⟨id, stage⟩ :: s.calls.drop (k + 1) := by
    rw [← hget, List.getElem_cons_drop hk, List.take_append_drop]
  refine ⟨s.calls.take k, s.calls.drop (k + 1), hsplit, fun call hmem hid => ?_, fun stage' => ?_, ?_⟩
  · have hnodup := h.nodup
    rw [hsplit, List.map_append, List.map_cons, List.nodup_middle, List.nodup_cons, ← List.map_append] at hnodup
    have hin : call.id ∈ (s.calls.take k ++ s.calls.drop (k + 1)).map Call.id := List.mem_map_of_mem hmem
    rw [hid] at hin
    exact hnodup.1 hin
  · exact List.set_eq_take_append_cons_drop.trans (if_pos hk)
  · exact List.eraseIdx_eq_take_drop_succ s.calls k

theorem Exclusive.mem_advance (h : s.Exclusive) (hcall : s.calls[k]? = some ⟨id, stage⟩) (call : Call) :
    call ∈ (s.advance k id stage').calls ↔ call = ⟨id, stage'⟩ ∨ (call ∈ s.calls ∧ call.id ≠ id) := by
  obtain ⟨before, after, hcalls, hothers, hadvance, -⟩ := h.split hcall
  have hother := hothers call
  rw [hadvance, hcalls]
  simp only [List.mem_append, List.mem_cons] at hother ⊢
  constructor
  · rintro (hmem | rfl | hmem)
    · exact Or.inr ⟨Or.inl hmem, hother (Or.inl hmem)⟩
    · exact Or.inl rfl
    · exact Or.inr ⟨Or.inr (Or.inr hmem), hother (Or.inr hmem)⟩
  · rintro (rfl | ⟨hmem | rfl | hmem, hne⟩)
    · exact Or.inr (Or.inl rfl)
    · exact Or.inl hmem
    · exact absurd rfl hne
    · exact Or.inr (Or.inr hmem)

theorem Exclusive.mem_finish (h : s.Exclusive) (hcall : s.calls[k]? = some ⟨id, stage⟩) (call : Call) :
    call ∈ (s.finish k id).calls ↔ call ∈ s.calls ∧ call.id ≠ id := by
  obtain ⟨before, after, hcalls, hothers, -, hfinish⟩ := h.split hcall
  have hother := hothers call
  rw [hfinish, hcalls]
  simp only [List.mem_append, List.mem_cons] at hother ⊢
  constructor
  · intro hmem
    exact ⟨hmem.imp_right Or.inr, hother hmem⟩
  · rintro ⟨hmem | rfl | hmem, hne⟩
    · exact Or.inl hmem
    · exact absurd rfl hne
    · exact Or.inr hmem

/-- a call that is in flight and no other has its id -/
theorem Exclusive.eq_of_id (h : s.Exclusive) {call call' : Call} (hmem : call ∈ s.calls) (hmem' : call' ∈ s.calls)
    (hid : call.id = call'.id) : call = call' := List.inj_on_of_nodup_map h.nodup hmem hmem' hid

theorem Exclusive.advance (h : s.Exclusive) (hcall : s.calls[k]? = some ⟨id, stage⟩) (stage' : Stage) :
    (s.advance k id stage').Exclusive := by
  obtain ⟨before, after, hcalls, -, hadvance, -⟩ := h.split hcall
  have hnodup := h.nodup
  refine ⟨?_, fun call hmem => ?_⟩
  · rw [hcalls, List.map_append, List.map_cons] at hnodup
    rwa [hadvance, List.map_append, List.map_cons]
  · rcases (h.mem_advance hcall call).1 hmem with rfl | ⟨hmem, -⟩
    · exact h.slots ⟨id, stage⟩ (List.mem_of_getElem? hcall)
    · exact h.slots call hmem

theorem Exclusive.finish (h : s.Exclusive) (hcall : s.calls[k]? = some ⟨id, stage⟩) : (s.finish k id).Exclusive := by
  refine ⟨h.nodup.sublist ((List.eraseIdx_sublist s.calls k).map _), fun call hmem => ?_⟩
  obtain ⟨hmem, hne⟩ := (h.mem_finish hcall call).1 hmem
  exact List.mem_filter.2 ⟨h.slots call hmem, decide_eq_true hne⟩

end State

/-! ## What the checks keep -/

/-- the monitors as they were created -/
structure Setup where
  monitors : String → Option Monitor
  created : ∀ id monitor, monitors id = some monitor → Created id monitor

/-- what is to be sent for the results of a monitor -/
def Monitor.told (monitor : Monitor) (results : List CheckResult) : List Event :=
  if monitor.notificationGroupId.isSome then events monitor.retryCount results else []

def State.sentEvents (s : State) (id : String) : List Event := (s.sent id).map fun sends => sends.2.event

/-- no window is open for any server -/
def Quiet : Op → Prop
  | .notify _ isInMaintenance => ∀ sid, isInMaintenance sid ≠ some true
  | _ => True

/-- what is known of a call in flight -/
def CallTracks (u : Setup) (s : State) (id : String) : Stage → Prop
  | .acquired => True
  | .checking monitor => s.rows id = some monitor
  | .checked monitor _ => s.rows id = some monitor
  | .committed monitor result consecutiveFailures => ∃ created before, u.monitors id = some created ∧
      s.records id = before ++ [result] ∧ monitor = created.since before ∧
      consecutiveFailures = Int32.ofNat (failRun (before ++ [result])) ∧ s.sentEvents id = created.told before

/-- it depends on what is stored for the monitor of the call, and sent for it -/
theorem CallTracks.congr {u : Setup} {s s' : State} {id : String} {stage : Stage} (h : CallTracks u s id stage)
    (hrows : s'.rows id = s.rows id) (hrecords : s'.records id = s.records id) (hsent : s'.sentEvents id = s.sentEvents id) :
    CallTracks u s' id stage := by
  cases stage with
  | acquired => trivial
  | checking monitor => exact hrows.trans h
  | checked monitor result => exact hrows.trans h
  | committed monitor result consecutiveFailures =>
    rw [CallTracks] at h ⊢
    rwa [hrecords, hsent]

def Stage.isCommitted : Stage → Bool
  | .committed _ _ _ => true
  | _ => false

structure Tracks (u : Setup) (s : State) : Prop where
  exclusive : s.Exclusive
  rows : ∀ id, s.rows id = (u.monitors id).map fun monitor => monitor.since (s.records id)
  calls : ∀ call ∈ s.calls, CallTracks u s call.id call.stage
  told : ∀ id monitor, u.monitors id = some monitor → (∀ call ∈ s.calls, call.id = id → call.stage.isCommitted = false) →
    s.sentEvents id = monitor.told (s.records id)

variable {u : Setup} {s : State}

theorem told_concat (monitor : Monitor) (results : List CheckResult) (result : CheckResult) :
    monitor.told (results ++ [result]) = monitor.told results ++
      (((monitor.since results).notification result (Int32.ofNat (failRun (results ++ [result])))).map
        fun sends => sends.2.event).toList := by
  rw [monitor.notification_since, Monitor.told, Monitor.told, events_concat]
  split <;> rfl

theorem tracks_start (u : Setup) : Tracks u (start u.monitors) := by
  refine ⟨⟨List.nodup_nil, nofun⟩, fun id => ?_, nofun, fun id monitor _ _ => ?_⟩
  · cases h : u.monitors id with
    | none => exact h
    | some monitor =>
      obtain ⟨-, hstatus, hfailures⟩ := u.created id monitor h
      have hsince : monitor.since [] = monitor := by
        simp [Monitor.since, failRun, ← hstatus, ← hfailures]
      rw [Option.map_some]
      exact h.trans (congrArg some hsince.symm)
  · simp [State.sentEvents, start, Monitor.told, events, eventsAfter]

/-- a call takes a step that writes nothing -/
theorem Tracks.advance (h : Tracks u s) {k : ℕ} {id : String} {stage stage' : Stage} (hcall : s.calls[k]? = some ⟨id, stage⟩)
    (hold : stage.isCommitted = false) (hstage : CallTracks u s id stage') :
    Tracks u (s.advance k id stage') := by
  have hmem : ∀ call, call ∈ (s.advance k id stage').calls ↔ call = ⟨id, stage'⟩ ∨ (call ∈ s.calls ∧ call.id ≠ id) :=
    h.exclusive.mem_advance hcall
  refine ⟨h.exclusive.advance hcall stage', h.rows, fun call hin => ?_, fun id' monitor hmonitor hnone => ?_⟩
  · rcases (hmem call).1 hin with rfl | ⟨hin, -⟩
    · exact hstage
    · exact h.calls call hin
  · refine h.told id' monitor hmonitor fun call hin hid => ?_
    by_cases hsame : call.id = id
    · have heq := h.exclusive.eq_of_id hin (List.mem_of_getElem? hcall) hsame
      rw [heq]
      exact hold
    · exact hnone call ((hmem call).2 (Or.inr ⟨hin, hsame⟩)) hid

/-- a call returns before it has committed -/
theorem Tracks.finish (h : Tracks u s) {k : ℕ} {id : String} {stage : Stage} (hcall : s.calls[k]? = some ⟨id, stage⟩)
    (hold : stage.isCommitted = false) : Tracks u (s.finish k id) := by
  have hmem := h.exclusive.mem_finish hcall
  refine ⟨h.exclusive.finish hcall, h.rows, fun call hin => h.calls call ((hmem call).1 hin).1, fun id' monitor hmonitor hnone => ?_⟩
  refine h.told id' monitor hmonitor fun call hin hid => ?_
  by_cases hsame : call.id = id
  · have heq := h.exclusive.eq_of_id hin (List.mem_of_getElem? hcall) hsame
    rw [heq]
    exact hold
  · exact hnone call ((hmem call).2 ⟨hin, hsame⟩) hid

theorem Tracks.runCheck (h : Tracks u s) (id : String) : Tracks u (s.step (.runCheck id)) := by
  rw [State.step]
  split
  next => exact h
  next hfree =>
    have hnew : ∀ call ∈ s.calls, call.id ≠ id := by
      rintro call hin rfl
      exact hfree (List.contains_iff_mem.2 (h.exclusive.slots call hin))
    refine ⟨⟨?_, fun call hin => ?_⟩, h.rows, fun call hin => ?_, fun id' monitor hmonitor hnone => ?_⟩
    · rw [List.map_append, List.map_singleton, List.nodup_append]
      refine ⟨h.exclusive.nodup, List.nodup_singleton _, fun id' hin id'' hin' => ?_⟩
      obtain ⟨call, hcall, rfl⟩ := List.mem_map.1 hin
      rw [List.mem_singleton.1 hin']
      exact hnew call hcall
    · rcases List.mem_append.1 hin with hin | hin
      · exact List.mem_cons_of_mem id (h.exclusive.slots call hin)
      · rw [List.mem_singleton.1 hin]
        exact List.mem_cons_self
    · rcases List.mem_append.1 hin with hin | hin
      · exact h.calls call hin
      · rw [List.mem_singleton.1 hin]
        trivial
    · exact h.told id' monitor hmonitor fun call hin => hnone call (List.mem_append_left _ hin)

/-- the transaction is committed: the row becomes the one of the results with the new one -/
theorem Tracks.transaction (h : Tracks u s) {k : ℕ} {id : String} {monitor : Monitor} {result : CheckResult}
    (hcall : s.calls[k]? = some ⟨id, .checked monitor result⟩) : Tracks u (s.step (.transaction k none)) := by
  have hrow : s.rows id = some monitor := h.calls _ (List.mem_of_getElem? hcall)
  obtain ⟨created, hcreated, hsince⟩ : ∃ created, u.monitors id = some created ∧ created.since (s.records id) = monitor :=
    Option.map_eq_some_iff.1 ((h.rows id).symm.trans hrow)
  have hcount : monitor.nextFailures result = Int32.ofNat (failRun (s.records id ++ [result])) := by
    rw [← hsince, created.nextFailures_since]
  have hbefore : s.sentEvents id = created.told (s.records id) := by
    apply h.told id created hcreated
    intro call hin hid
    rw [h.exclusive.eq_of_id hin (List.mem_of_getElem? hcall) hid]
    rfl
  have hmem : ∀ call, call ∈ (s.advance k id (.committed monitor result (monitor.nextFailures result))).calls ↔
      call = ⟨id, .committed monitor result (monitor.nextFailures result)⟩ ∨ (call ∈ s.calls ∧ call.id ≠ id) :=
    h.exclusive.mem_advance hcall
  simp only [State.step, hcall]
  refine ⟨⟨(h.exclusive.advance hcall _).nodup, (h.exclusive.advance hcall _).slots⟩, fun id' => ?_, fun call hin => ?_,
    fun id' other hother hnone => ?_⟩
  · by_cases hid : id' = id
    · subst hid
      simp only [Function.update_self, hrow, hcreated, Option.map_some, hcount]
      rw [← hsince, created.update_since]
    · simp only [Function.update_of_ne hid]
      exact h.rows id'
  · rcases (hmem call).1 hin with rfl | ⟨hin, hne⟩
    · exact ⟨created, s.records id, hcreated, Function.update_self _ _ _, hsince.symm, hcount, hbefore⟩
    · exact (h.calls call hin).congr (Function.update_of_ne hne _ _) (Function.update_of_ne hne _ _) rfl
  · by_cases hid : id' = id
    · subst hid
      have hcommitted := hnone _ ((hmem ⟨id', .committed monitor result (monitor.nextFailures result)⟩).2 (Or.inl rfl)) rfl
      cases hcommitted
    · simp only [Function.update_of_ne hid]
      refine h.told id' other hother fun call hin hid' => ?_
      exact hnone call ((hmem call).2 (Or.inr ⟨hin, fun hsame => hid (hid'.symm.trans hsame)⟩)) hid'

/-- the call notifies, and returns -/
theorem Tracks.notify (h : Tracks u s) {k : ℕ} {id : String} {monitor : Monitor} {result : CheckResult}
    {consecutiveFailures : Int32} (hcall : s.calls[k]? = some ⟨id, .committed monitor result consecutiveFailures⟩)
    {isInMaintenance : String → Option Bool} (hquiet : ∀ sid, isInMaintenance sid ≠ some true) :
    Tracks u (s.step (.notify k isInMaintenance)) := by
  obtain ⟨created, before, hcreated, hrecords, hsince, hcount, hsent⟩ := h.calls _ (List.mem_of_getElem? hcall)
  have hopen : monitor.anyServerInMaintenance isInMaintenance = false := by
    unfold Monitor.anyServerInMaintenance
    split
    · rfl
    · rw [List.any_eq_false]
      intro sid _ hopen
      cases hanswer : isInMaintenance sid with
      | none =>
        rw [hanswer] at hopen
        cases hopen
      | some answer =>
        rw [hanswer] at hopen
        exact hquiet sid (hanswer.trans (congrArg some hopen))
  have hstep : s.step (.notify k isInMaintenance) = { s.finish k id with
      sent := Function.update s.sent id (s.sent id ++ (monitor.notification result consecutiveFailures).toList) } := by
    simp [State.step, hcall, hopen]
  have hmem := h.exclusive.mem_finish hcall
  rw [hstep]
  refine ⟨⟨(h.exclusive.finish hcall).nodup, (h.exclusive.finish hcall).slots⟩, h.rows, fun call hin => ?_,
    fun id' other hother hnone => ?_⟩
  · obtain ⟨hin, hne⟩ := (hmem call).1 hin
    refine (h.calls call hin).congr rfl rfl ?_
    exact congrArg (List.map _) (Function.update_of_ne hne _ _)
  · by_cases hid : id' = id
    · subst hid
      cases hcreated.symm.trans hother
      rw [State.sentEvents] at hsent
      change List.map _ (Function.update s.sent id' _ id') = created.told (s.records id')
      rw [Function.update_self, List.map_append, hsent, hrecords, told_concat, ← hsince, ← hcount, Option.toList_map]
    · change List.map _ (Function.update s.sent id _ id') = other.told (s.records id')
      rw [Function.update_of_ne hid]
      refine h.told id' other hother fun call hin hid' => ?_
      exact hnone call ((hmem call).2 ⟨hin, fun hsame => hid (hid'.symm.trans hsame)⟩) hid'

theorem Tracks.step (h : Tracks u s) {op : Op} (hquiet : Quiet op) : Tracks u (s.step op) := by
  cases op with
  | runCheck id => exact h.runCheck id
  | get k fails =>
    rw [State.step]
    split
    next id hcall =>
      split
      next monitor hrow =>
        split
        · exact h.finish hcall rfl
        · exact h.advance hcall rfl hrow
      next => exact h.finish hcall rfl
    next => exact h
  | check k result =>
    rw [State.step]
    split
    next id monitor hcall => exact h.advance hcall rfl (h.calls _ (List.mem_of_getElem? hcall))
    next => exact h
  | transaction k failing =>
    cases failing with
    | some statement =>
      rw [State.step]
      split
      next id monitor result hcall => exact h.finish hcall rfl
      next => exact h
    | none =>
      by_cases hcall : ∃ id monitor result, s.calls[k]? = some ⟨id, .checked monitor result⟩
      · obtain ⟨id, monitor, result, hcall⟩ := hcall
        exact h.transaction hcall
      · rw [State.step]
        split
        next id monitor result hsome => exact absurd ⟨id, monitor, result, hsome⟩ hcall
        next => exact h
  | notify k isInMaintenance =>
    by_cases hcall : ∃ id monitor result count, s.calls[k]? = some ⟨id, .committed monitor result count⟩
    · obtain ⟨id, monitor, result, count, hcall⟩ := hcall
      exact h.notify hcall hquiet
    · rw [State.step]
      split
      next id monitor result count hsome => exact absurd ⟨id, monitor, result, count, hsome⟩ hcall
      next => exact h

theorem Tracks.runs (h : Tracks u s) {ops : List Op} (hquiet : ∀ op ∈ ops, Quiet op) : Tracks u (runs State.step s ops) := by
  induction ops generalizing s with
  | nil => exact h
  | cons op ops ih =>
    rw [List.forall_mem_cons] at hquiet
    exact ih (h.step hquiet.1) hquiet.2

/-! ## Every run -/

theorem State.Exclusive.at_most_one (h : s.Exclusive) (id : String) :
    (s.calls.filter fun call => decide (call.id = id)).length ≤ 1 := by
  have hids : (s.calls.filter fun call => decide (call.id = id)).map Call.id =
      List.replicate (s.calls.filter fun call => decide (call.id = id)).length id := by
    rw [List.eq_replicate_iff, List.length_map]
    refine ⟨rfl, fun id' hin => ?_⟩
    obtain ⟨call, hcall, rfl⟩ := List.mem_map.1 hin
    exact of_decide_eq_true (List.mem_filter.1 hcall).2
  have hnodup : ((s.calls.filter fun call => decide (call.id = id)).map Call.id).Nodup :=
    h.nodup.sublist (List.filter_sublist.map Call.id)
  rwa [hids, List.nodup_replicate] at hnodup

/-- what was sent, and what is still to be sent by a check that has committed -/
theorem Tracks.sent (h : Tracks u s) {id : String} {monitor : Monitor} (hmonitor : u.monitors id = some monitor) :
    ∃ owed : List Event, s.sentEvents id ++ owed = monitor.told (s.records id) ∧
      (owed ≠ [] → ∃ call ∈ s.calls, call.id = id ∧ call.stage.isCommitted = true) := by
  by_cases hcommitted : ∃ call ∈ s.calls, call.id = id ∧ call.stage.isCommitted = true
  · obtain ⟨call, hin, rfl, hstage⟩ := hcommitted
    have htracks := h.calls call hin
    cases hcase : call.stage with
    | committed before result count =>
      rw [hcase] at htracks
      obtain ⟨created, before, hcreated, hrecords, -, -, hsent⟩ := htracks
      cases hcreated.symm.trans hmonitor
      refine ⟨(((monitor.since before).notification result (Int32.ofNat (failRun (before ++ [result])))).map
        fun sends => sends.2.event).toList, ?_, fun _ => ⟨call, hin, rfl, hstage⟩⟩
      rw [hsent, hrecords, told_concat]
    | _ =>
      rw [hcase] at hstage
      cases hstage
  · refine ⟨[], ?_, fun hne => absurd rfl hne⟩
    rw [List.append_nil]
    refine h.told id monitor hmonitor fun call hin hid => ?_
    by_contra hstage
    exact hcommitted ⟨call, hin, hid, (Bool.not_eq_false _).mp hstage⟩

/-- **What a monitor is told about.** In every state that checks lead to, in any order and with any statements failing, while no
maintenance window is open: at most one check of a monitor is in flight; its row has the status of the last committed result and,
as a 32-bit integer, the length of the failing run that ends there; and what was sent to its group, with what a check that has
committed is still to send, is one triggered event for each failure with which the run exceeds `retry_count`, and one recovered
event for each success directly after a failure, in the order of the results. -/
theorem monitor_notices (u : Setup) (ops : List Op) (hquiet : ∀ op ∈ ops, Quiet op) (id : String) (monitor : Monitor)
    (hmonitor : u.monitors id = some monitor) :
    ((runs State.step (start u.monitors) ops).calls.filter fun call => decide (call.id = id)).length ≤ 1 ∧
    (∃ row, (runs State.step (start u.monitors) ops).rows id = some row ∧
      row.lastStatus = ((runs State.step (start u.monitors) ops).records id).getLast?.map CheckResult.success ∧
      row.consecutiveFailures = Int32.ofNat (failRun ((runs State.step (start u.monitors) ops).records id))) ∧
    (monitor.notificationGroupId.isSome → ∃ owed : List Event,
      (runs State.step (start u.monitors) ops).sentEvents id ++ owed =
        events monitor.retryCount ((runs State.step (start u.monitors) ops).records id) ∧
      (owed ≠ [] → ∃ call ∈ (runs State.step (start u.monitors) ops).calls, call.id = id ∧ call.stage.isCommitted = true)) := by
  have h : Tracks u (runs State.step (start u.monitors) ops) := (tracks_start u).runs hquiet
  refine ⟨h.exclusive.at_most_one id, ⟨_, (h.rows id).trans (by rw [hmonitor]; rfl), rfl, rfl⟩, fun hgroup => ?_⟩
  have hsent := h.sent hmonitor
  rwa [Monitor.told, if_pos hgroup] at hsent

/-! ## Two runs -/

/-- what a pairing of the notifications would be: a run of failures is told once, when it first exceeds the threshold, and its end
only if it was told -/
def pairedAt (retryCount : Int32) (before : List CheckResult) (result : CheckResult) : Option Event :=
  let exceeds (n : ℕ) : Bool := decide (0 < n) && decide ((n : ℤ) > retryCount.toInt)
  if result.success then if exceeds (failRun before) then some .recovered else none
  else if exceeds (failRun (before ++ [result])) && !exceeds (failRun before) then some .triggered
  else none

def oneMonitor (retryCount : Int32) : Setup where
  monitors := fun id => if id = "m" then some ⟨"m", "web", "tcp", some "ops", retryCount, none, none, 0⟩ else none
  created := by
    intro id monitor h
    split_ifs at h with hid
    cases h
    exact ⟨hid.symm, rfl, rfl⟩

/-- one complete check, in which nothing fails -/
def checkOnce (success : Bool) : List Op :=
  [.runCheck "m", .get 0 false, .check 0 ⟨success, none⟩, .transaction 0 none, .notify 0 fun _ => some false]

/-- two failures and a success, with one retry -/
theorem monitor_notices_once : ∃ owed : List Event,
    (runs State.step (start (oneMonitor 1).monitors) (checkOnce false ++ checkOnce false ++ checkOnce true)).sentEvents "m" ++
      owed = [.triggered, .recovered] := by
  have hquiet : ∀ op ∈ checkOnce false ++ checkOnce false ++ checkOnce true, Quiet op := by
    simp [checkOnce, Quiet]
  obtain ⟨-, -, hsent⟩ := monitor_notices (oneMonitor 1) _ hquiet "m" _ rfl
  obtain ⟨owed, hsent, -⟩ := hsent rfl
  exact ⟨owed, hsent.trans (by decide +kernel)⟩

/-- a run of two failures is told twice, and the end of a run that was not told is told -/
theorem notices_unpaired :
    (runs State.step (start (oneMonitor 0).monitors) (checkOnce false ++ checkOnce false)).sentEvents "m" =
      [.triggered, .triggered] ∧
    (runs State.step (start (oneMonitor 1).monitors) (checkOnce false ++ checkOnce true)).sentEvents "m" = [.recovered] ∧
    ¬ ∀ (u : Setup) (ops : List Op) (id : String) (monitor : Monitor), (∀ op ∈ ops, Quiet op) → u.monitors id = some monitor →
      monitor.notificationGroupId.isSome → (runs State.step (start u.monitors) ops).calls = [] →
      (runs State.step (start u.monitors) ops).sentEvents id =
        eventsAfter (pairedAt monitor.retryCount) [] ((runs State.step (start u.monitors) ops).records id) := by
  have htwice : (runs State.step (start (oneMonitor 0).monitors) (checkOnce false ++ checkOnce false)).sentEvents "m" =
      [.triggered, .triggered] := by decide +kernel
  refine ⟨htwice, by decide +kernel, fun h => ?_⟩
  have hquiet : ∀ op ∈ checkOnce false ++ checkOnce false, Quiet op := by
    simp [checkOnce, Quiet]
  have hpaired := h (oneMonitor 0) _ "m" _ hquiet rfl rfl (by decide +kernel)
  rw [htwice] at hpaired
  revert hpaired
  decide +kernel

end ServerBee.Monitors
