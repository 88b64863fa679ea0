/-
The schedulers run what the last list says.

`Settles` is what settling one entry does to a sound map: a running task for the entry is held under its id, and nothing happens
to another id. From it, `settle_last` says what the whole list leaves under an id: a task for the last entry with that id. With
the pass before it, which leaves no handle under an id that is not in the list, this is `Mirrored`, for any such map. The two
managers settle their entries in different ways, and both do what `Settles` asks.
-/
import ServerBee.Schedulers.Model

namespace ServerBee.Schedulers

open ServerBee.Lib

variable {κ : Type}

/-! ## What is to hold after a call -/

/-- the last entry of the list with this id -/
def lastEntry (idOf : κ → String) (id : String) (configs : List κ) : Option κ :=
  configs.reverse.find? fun config => decide (idOf config = id)

/-- the task was spawned, and nobody aborted it, and it has not ended -/
def Running (m : Handles String κ) (i : ℕ) (task : Spawned κ) : Prop :=
  m.spawned[i]? = some task ∧ task.aborted = false ∧ task.ended = false

/-- one task for each id of the list, which runs what its last entry says, unless it ended since, and no other -/
structure Mirrored (idOf : κ → String) (agrees : κ → κ → Prop) (configs : List κ) (ends : List (List ℕ))
    (m : Handles String κ) : Prop where
  each : ∀ id config, lastEntry idOf id configs = some config → ∃ i task, m.get id = some i ∧ m.spawned[i]? = some task ∧
    task.aborted = false ∧ agrees task.config config ∧ (task.ended = true → i ∈ ends.flatten) ∧
    ∀ i' task', Running m i' task' → idOf task'.config = id → i' = i
  others : ∀ i task, Running m i task → (lastEntry idOf (idOf task.config) configs).isSome

/-! ## The last entry -/

variable {idOf : κ → String} {agrees : κ → κ → Prop} {m : Handles String κ}

theorem lastEntry_cons (id : String) (config : κ) (configs : List κ) : lastEntry idOf id (config :: configs) =
    (lastEntry idOf id configs).or (if idOf config = id then some config else none) := by
  rw [lastEntry, List.reverse_cons, List.find?_append, List.find?_singleton]
  simp [lastEntry]

theorem lastEntry_eq_none {id : String} {configs : List κ} : lastEntry idOf id configs = none ↔ id ∉ configs.map idOf := by
  simp [lastEntry]

/-! ## The first pass -/

theorem stop_all {P : Handles String κ → Prop} (hstep : ∀ m id, P m → P (m.stop id)) (ids : List String) (h : P m) :
    P (ids.foldl Handles.stop m) := by
  induction ids generalizing m with
  | nil => exact h
  | cons id ids ih => exact ih (hstep m id h)

theorem get_stop_all {id : String} {ids : List String} (h : id ∈ ids ∨ m.get id = none) :
    (ids.foldl Handles.stop m).get id = none := by
  induction ids generalizing m with
  | nil => simpa using h
  | cons id' ids ih =>
    apply ih
    by_cases hsame : id = id'
    · subst hsame
      exact Or.inr (m.get_stop_self id)
    · rw [m.get_stop_of_ne hsame]
      simpa [hsame] using h

theorem frame_stop_all {id : String} {ids : List String} (h : id ∉ ids) :
    Handles.Frame idOf id [] m (ids.foldl Handles.stop m) := by
  induction ids generalizing m with
  | nil => exact Handles.Frame.refl id m
  | cons id' ids ih =>
    rw [List.mem_cons, not_or] at h
    exact (Handles.frame_stop h.1 m).trans (ih h.2)

theorem get_none_of_not_mem {id : String} (h : id ∉ m.tasks.map Prod.fst) : m.get id = none := by
  rw [Handles.get, List.lookup_eq_none_iff]
  intro e he
  have hne : e.1 ≠ id := fun hsame => h (hsame ▸ List.mem_map_of_mem he)
  exact bne_iff_ne.2 hne.symm

theorem get_stopAbsent {id : String} {configs : List κ} (h : id ∉ configs.map idOf) :
    (stopAbsent idOf m configs).get id = none := by
  apply get_stop_all
  by_cases hmem : id ∈ m.tasks.map Prod.fst
  · left
    have hout : ((configs.map idOf).contains id) = false := Bool.eq_false_iff.2 fun hin => h (List.contains_iff_mem.1 hin)
    exact List.mem_filter.2 ⟨hmem, by rw [hout]; rfl⟩
  · exact Or.inr (get_none_of_not_mem hmem)

theorem frame_stopAbsent {id : String} {configs : List κ} (h : id ∈ configs.map idOf) :
    Handles.Frame idOf id [] m (stopAbsent idOf m configs) := by
  apply frame_stop_all
  intro hmem
  have habsent := (List.mem_filter.1 hmem).2
  rw [List.contains_iff_mem.2 h] at habsent
  cases habsent

theorem sound_stopAbsent (hm : m.Sound idOf) (configs : List κ) : (stopAbsent idOf m configs).Sound idOf :=
  stop_all (fun _ id hm => hm.stop id) _ hm

/-! ## The second pass -/

/-- what settling one entry has to do -/
structure Settles (idOf : κ → String) (agrees : κ → κ → Prop) (entry : Handles String κ → κ → Handles String κ) : Prop where
  sound : ∀ m config, m.Sound idOf → (entry m config).Sound idOf
  held : ∀ m config, m.Sound idOf → ∃ i task, (entry m config).get (idOf config) = some i ∧
    (entry m config).spawned[i]? = some task ∧ agrees task.config config ∧ task.ended = false
  frame : ∀ m config id, id ≠ idOf config → Handles.Frame idOf id [] m (entry m config)

variable {entry : Handles String κ → κ → Handles String κ}

namespace Settles

variable (h : Settles idOf agrees entry)
include h

theorem settle_sound (hm : m.Sound idOf) (configs : List κ) (ends : List (List ℕ)) : (settle entry m configs ends).Sound idOf := by
  induction configs generalizing m ends with
  | nil => exact hm
  | cons config configs ih => exact ih (h.sound _ config (hm.finish _)) ends.tail

theorem settle_frame {id : String} {configs : List κ} (hid : id ∉ configs.map idOf) (ends : List (List ℕ)) :
    Handles.Frame idOf id (ends.take configs.length).flatten m (settle entry m configs ends) := by
  induction configs generalizing m ends with
  | nil => exact Handles.Frame.refl id m
  | cons config configs ih =>
    rw [List.map_cons, List.mem_cons, not_or] at hid
    have hfirst := (Handles.frame_finish id m (ends.headD [])).trans (h.frame (m.finish (ends.headD [])) config id hid.1)
    have hall := hfirst.trans (ih hid.2 ends.tail)
    cases ends with
    | nil => simpa [settle] using hall
    | cons ended ends => simpa [settle] using hall

/-- what the whole list leaves under an id, by induction on the list -/
theorem settle_last (hm : m.Sound idOf) {id : String} {config : κ} {configs : List κ} (ends : List (List ℕ))
    (hlast : lastEntry idOf id configs = some config) :
    ∃ i task, (settle entry m configs ends).get id = some i ∧ (settle entry m configs ends).spawned[i]? = some task ∧
      agrees task.config config ∧ (task.ended = true → i ∈ ends.flatten) := by
  induction configs generalizing m ends with
  | nil => cases hlast
  | cons first configs ih =>
    have hm' := h.sound _ first (hm.finish (ends.headD []))
    rw [lastEntry_cons] at hlast
    cases hrest : lastEntry idOf id configs with
    | some later =>
      rw [hrest] at hlast
      obtain ⟨i, task, hget, htask, hagrees, hended⟩ := ih hm' ends.tail (hrest.trans hlast)
      refine ⟨i, task, hget, htask, hagrees, fun hnow => ?_⟩
      have htail := hended hnow
      cases ends with
      | nil => exact htail
      | cons ended ends => exact List.mem_append_right ended htail
    | none =>
      -- no later entry has the id, and the task of this one stays
      rw [hrest, Option.none_or] at hlast
      obtain ⟨rfl, hfirst⟩ : idOf first = id ∧ first = config := by simpa using hlast
      subst hfirst
      obtain ⟨i, task, hget, htask, hagrees, hrunning⟩ := h.held _ first (hm.finish (ends.headD []))
      have hframe := h.settle_frame (m := entry (m.finish (ends.headD [])) first) (lastEntry_eq_none.1 hrest) ends.tail
      obtain ⟨task', htask', hconfig, hended⟩ := hframe.grows i task htask
      refine ⟨i, task', hframe.get.trans hget, htask', hconfig ▸ hagrees, fun hnow => ?_⟩
      rcases hended hnow with hbefore | hmem
      · rw [hrunning] at hbefore
        cases hbefore
      · obtain ⟨ended, hin, hmem⟩ := List.mem_flatten.1 hmem
        exact List.mem_flatten.2 ⟨ended, List.mem_of_mem_tail (List.mem_of_mem_take hin), hmem⟩

theorem mirrored (hm : m.Sound idOf) (configs : List κ) (ends : List (List ℕ)) :
    Mirrored idOf agrees configs ends (reconcile idOf entry m configs ends) := by
  have habsent := sound_stopAbsent hm configs
  have hsound : (reconcile idOf entry m configs ends).Sound idOf := h.settle_sound habsent configs ends
  refine ⟨fun id config hlast => ?_, fun i task hrun => ?_⟩
  · obtain ⟨i, task, hget, htask, hagrees, hended⟩ := h.settle_last habsent ends hlast
    obtain ⟨task', htask', haborted, -⟩ := hsound.held id i hget
    cases htask.symm.trans htask'
    refine ⟨i, task, hget, htask, haborted, hagrees, hended, fun i' task' hrun hid => ?_⟩
    have hget' := hsound.kept i' task' hrun.1 hrun.2.1 hrun.2.2
    rw [hid] at hget'
    exact Option.some.inj (hget'.symm.trans hget)
  · rw [Option.isSome_iff_ne_none]
    intro hnone
    have hid := lastEntry_eq_none.1 hnone
    have hget := hsound.kept i task hrun.1 hrun.2.1 hrun.2.2
    have hframe := h.settle_frame (m := stopAbsent idOf m configs) hid ends
    rw [reconcile, hframe.get, get_stopAbsent hid] at hget
    cases hget

end Settles

theorem get_drained (m : Handles String κ) (id : String) : (stopAll m).get id = none := by
  apply get_stop_all
  by_cases hmem : id ∈ m.tasks.map Prod.fst
  · exact Or.inl hmem
  · exact Or.inr (get_none_of_not_mem hmem)

theorem sound_drained (hm : m.Sound idOf) : (stopAll m).Sound idOf :=
  stop_all (fun _ id hm => hm.stop id) _ hm

/-- after `stop_all` nothing runs -/
theorem drained (hm : m.Sound idOf) (i : ℕ) (task : Spawned κ) : ¬ Running (stopAll m) i task := by
  intro hrun
  have hget := (sound_drained hm).kept i task hrun.1 hrun.2.1 hrun.2.2
  rw [get_drained] at hget
  cases hget

/-! ## `NetworkProber` -/

namespace NetworkProber

open RunningTask (Agrees)

theorem shouldRestart_eq_false {prober : NetworkProber} {config : RunningTask} {i : ℕ} {existing : Spawned RunningTask}
    (hget : prober.get config.id = some i) (hexisting : prober.spawned[i]? = some existing) (hid : existing.config.id = config.id) :
    shouldRestart prober config = false ↔ existing.ended = false ∧ Agrees existing.config config := by
  have hfinished : prober.isFinished i = existing.ended := by rw [Handles.isFinished, hexisting, Option.any_some]
  have hget' : Handles.get prober config.target.targetId = some i := hget
  simp only [shouldRestart, hget', hexisting, hfinished, Bool.or_eq_false_iff, bne_eq_false_iff_eq]
  constructor
  · rintro ⟨⟨⟨⟨hended, hinterval⟩, hpackets⟩, htype⟩, htarget⟩
    exact ⟨hended, hid, hinterval, hpackets, htype, htarget⟩
  · rintro ⟨hended, h⟩
    exact ⟨⟨⟨⟨hended, h.interval⟩, h.packetCount⟩, h.probeType⟩, h.target⟩

theorem settles : Settles RunningTask.id Agrees settleEntry := by
  refine ⟨fun m config hm => ?_, fun m config hm => ?_, fun m config id hne => ?_⟩
  · rw [settleEntry]
    split
    · exact (hm.stop _).start (m.get_stop_self _)
    · exact hm
  · cases hrestart : shouldRestart m config with
    | true =>
      have hentry : settleEntry m config = (m.stop config.id).start RunningTask.id config := if_pos hrestart
      rw [hentry]
      exact ⟨_, ⟨config, false, false⟩, Handles.get_start_self _ _ _, List.getElem?_concat_length, ⟨rfl, rfl, rfl, rfl, rfl⟩, rfl⟩
    | false =>
      have hentry : settleEntry m config = m := if_neg (Bool.eq_false_iff.1 hrestart)
      rw [hentry]
      cases hget : m.get config.id with
      | none =>
        have habsent : Handles.get m config.target.targetId = none := hget
        simp [shouldRestart, habsent] at hrestart
      | some i =>
        obtain ⟨existing, hexisting, -, hid⟩ := hm.held _ i hget
        obtain ⟨hended, hagrees⟩ := (shouldRestart_eq_false hget hexisting hid).1 hrestart
        exact ⟨i, existing, rfl, hexisting, hagrees, hended⟩
  · rw [settleEntry]
    split
    · exact (Handles.frame_stop hne m).trans (Handles.frame_start hne _)
    · exact Handles.Frame.refl id m

theorem run_sound (ops : List Op) : (run ops).Sound RunningTask.id := by
  apply List.foldlRecOn ops step Handles.sound_empty
  intro m hm op _
  cases op with
  | sync targets interval packetCount caps ends =>
    exact settles.settle_sound (sound_stopAbsent hm _) _ ends
  | stopAll => exact sound_drained hm
  | ended tasks => exact hm.finish tasks

/-- the entry of an id that is not repeated leaves its task as it is, by induction on the entries before it -/
theorem settle_kept {m : NetworkProber} {before after : List RunningTask} {config : RunningTask} {i : ℕ}
    {task : Spawned RunningTask} {ends : List (List ℕ)} (hbefore : config.id ∉ before.map RunningTask.id)
    (hafter : config.id ∉ after.map RunningTask.id) (hget : m.get config.id = some i) (htask : m.spawned[i]? = some task)
    (hended : task.ended = false) (hends : i ∉ (ends.take (before.length + 1)).flatten) (hagrees : Agrees task.config config) :
    ∃ ended, Handles.Frame RunningTask.id config.id ended m (settle settleEntry m (before ++ config :: after) ends) := by
  induction before generalizing m ends task with
  | nil =>
    have hfinish : Handles.Frame RunningTask.id config.id (ends.headD []) m (m.finish (ends.headD [])) :=
      Handles.frame_finish config.id m _
    have hhead : i ∉ ends.headD [] := by
      cases ends with
      | nil => exact List.not_mem_nil
      | cons ended ends => simpa using hends
    obtain ⟨task', htask', hconfig, hrun⟩ := hfinish.grows.running htask hended hhead
    have hstay : settleEntry (m.finish (ends.headD [])) config = m.finish (ends.headD []) := by
      apply if_neg
      rw [Bool.not_eq_true, shouldRestart_eq_false (hfinish.get.trans hget) htask' (hconfig ▸ hagrees.id)]
      exact ⟨hrun, hconfig ▸ hagrees⟩
    have hrest : Handles.Frame RunningTask.id config.id _ (m.finish (ends.headD [])) _ :=
      settles.settle_frame hafter ends.tail
    rw [List.nil_append, settle, hstay]
    exact ⟨_, hfinish.trans hrest⟩
  | cons first before ih =>
    rw [List.map_cons, List.mem_cons, not_or] at hbefore
    have hfirst : Handles.Frame RunningTask.id config.id _ m (settleEntry (m.finish (ends.headD [])) first) :=
      (Handles.frame_finish config.id m _).trans (settles.frame _ first config.id hbefore.1)
    obtain ⟨hhead, htail⟩ : i ∉ ends.headD [] ++ [] ∧ i ∉ (ends.tail.take (before.length + 1)).flatten := by
      cases ends with
      | nil => simp
      | cons ended ends => simpa using hends
    obtain ⟨task', htask', hconfig, hrun⟩ := hfirst.grows.running htask hended hhead
    obtain ⟨ended, hrest⟩ := ih hbefore.2 (hfirst.get.trans hget) htask' hrun htail (hconfig ▸ hagrees)
    exact ⟨_, hfirst.trans hrest⟩

/-- the task with handle `i` is not restarted: it keeps its handle, nobody aborts it, and nothing is spawned for its id -/
def NotRestarted (m m' : NetworkProber) (id : String) (i : ℕ) : Prop :=
  m'.get id = some i ∧ (∃ task, m'.spawned[i]? = some task ∧ task.aborted = false) ∧
    ∀ j task, m'.spawned[j]? = some task → task.config.id = id → j < m.spawned.length

theorem kept {m : NetworkProber} (hm : m.Sound RunningTask.id) {before after : List RunningTask} {config : RunningTask} {i : ℕ}
    {task : Spawned RunningTask} {ends : List (List ℕ)} (hbefore : config.id ∉ before.map RunningTask.id)
    (hafter : config.id ∉ after.map RunningTask.id) (hget : m.get config.id = some i) (htask : m.spawned[i]? = some task)
    (hended : task.ended = false) (hends : i ∉ (ends.take (before.length + 1)).flatten) (hagrees : Agrees task.config config) :
    NotRestarted m (reconcile RunningTask.id settleEntry m (before ++ config :: after) ends) config.id i := by
  have hin : config.id ∈ (before ++ config :: after).map RunningTask.id := by
    rw [List.map_append, List.map_cons]
    exact List.mem_append_right _ List.mem_cons_self
  have hstop : Handles.Frame RunningTask.id config.id [] m (stopAbsent RunningTask.id m (before ++ config :: after)) :=
    frame_stopAbsent hin
  have hsound := settles.settle_sound (sound_stopAbsent hm (before ++ config :: after)) (before ++ config :: after) ends
  obtain ⟨task', htask', hconfig, hrun⟩ := hstop.grows.running htask hended List.not_mem_nil
  obtain ⟨ended, hsettle⟩ := settle_kept hbefore hafter (hstop.get.trans hget) htask' hrun hends (hconfig ▸ hagrees)
  have hall := hstop.trans hsettle
  have hkept := hall.get.trans hget
  obtain ⟨last, hlast, haborted, -⟩ := hsound.held _ i hkept
  exact ⟨hkept, ⟨last, hlast, haborted⟩, hall.fresh⟩

end NetworkProber

/-! ## `PingManager` -/

namespace PingManager

theorem settles : Settles PingTaskConfig.taskId Eq settleEntry := by
  have hstarted : ∀ (m : PingManager) config, ∃ i task,
      (m.start PingTaskConfig.taskId config).get config.taskId = some i ∧
      (m.start PingTaskConfig.taskId config).spawned[i]? = some task ∧ task.config = config ∧ task.ended = false := by
    intro m config
    exact ⟨_, ⟨config, false, false⟩, Handles.get_start_self _ m config, List.getElem?_concat_length, rfl, rfl⟩
  refine ⟨fun m config hm => ?_, fun m config hm => ?_, fun m config id hne => ?_⟩
  · unfold settleEntry
    split
    next hnone => exact hm.start hnone
    next i hget =>
      split
      next hfinished =>
        refine (hm.forget fun i' task hget' htask => ?_).start (m.get_forget_self _)
        cases hget.symm.trans hget'
        simpa [Handles.isFinished, htask] using hfinished
      next => exact (hm.stop _).start (m.get_stop_self _)
  · unfold settleEntry
    split
    · exact hstarted m config
    · split
      · exact hstarted _ config
      · exact hstarted _ config
  · unfold settleEntry
    split
    · exact Handles.frame_start hne m
    · split
      · exact (Handles.frame_forget hne m).trans (Handles.frame_start hne _)
      · exact (Handles.frame_stop hne m).trans (Handles.frame_start hne _)

theorem run_sound (ops : List Op) : (run ops).Sound PingTaskConfig.taskId := by
  apply List.foldlRecOn ops step Handles.sound_empty
  intro m hm op _
  cases op with
  | sync configs caps ends => exact settles.settle_sound (sound_stopAbsent hm _) _ ends
  | stopAll => exact sound_drained hm
  | ended tasks => exact hm.finish tasks

end PingManager

/-! ## Every run -/

/-- **The schedulers run what the last list says.** After any calls and any ends of tasks, a call of `sync` leaves one task for
each id of the list that the capabilities permit, which runs what the last entry with the id says, and no other; it does not
restart a task of the network prober whose id is not repeated, which has not ended when its entry is settled, and whose config is
the same. After `stop_all` nothing runs. -/
theorem schedulers_mirror :
    (∀ ops targets interval packetCount caps ends,
      Mirrored RunningTask.id RunningTask.Agrees (NetworkProber.wanted targets interval packetCount caps) ends
        (NetworkProber.sync (NetworkProber.run ops) targets interval packetCount caps ends) ∧
      ∀ before config after i task,
        NetworkProber.wanted targets interval packetCount caps = before ++ config :: after →
        config.id ∉ before.map RunningTask.id → config.id ∉ after.map RunningTask.id →
        (NetworkProber.run ops).get config.id = some i → (NetworkProber.run ops).spawned[i]? = some task →
        task.ended = false → i ∉ (ends.take (before.length + 1)).flatten → RunningTask.Agrees task.config config →
        NetworkProber.NotRestarted (NetworkProber.run ops)
          (NetworkProber.sync (NetworkProber.run ops) targets interval packetCount caps ends) config.id i) ∧
    (∀ ops configs caps ends, Mirrored PingTaskConfig.taskId Eq (PingManager.wanted configs caps) ends
      (PingManager.sync (PingManager.run ops) configs caps ends)) ∧
    (∀ ops i task, ¬ Running (stopAll (NetworkProber.run ops)) i task) ∧
    ∀ ops i task, ¬ Running (stopAll (PingManager.run ops)) i task := by
  refine ⟨fun ops targets interval packetCount caps ends => ⟨?_, ?_⟩, fun ops configs caps ends => ?_, fun ops => ?_, fun ops => ?_⟩
  · exact NetworkProber.settles.mirrored (NetworkProber.run_sound ops) _ ends
  · intro before config after i task hwanted hbefore hafter hget htask hended hends hagrees
    rw [NetworkProber.sync, hwanted]
    exact NetworkProber.kept (NetworkProber.run_sound ops) hbefore hafter hget htask hended hends hagrees
  · exact PingManager.settles.mirrored (PingManager.run_sound ops) _ ends
  · exact drained (NetworkProber.run_sound ops)
  · exact drained (PingManager.run_sound ops)

/-- a second target is added, and the task of the first one stays -/
theorem schedulers_mirror_two :
    NetworkProber.NotRestarted
      (NetworkProber.run [.sync [⟨"a", "A", "1.1.1.1", "icmp"⟩] 60 10 8 []])
      (NetworkProber.sync (NetworkProber.run [.sync [⟨"a", "A", "1.1.1.1", "icmp"⟩] 60 10 8 []])
        [⟨"a", "A'", "1.1.1.1", "icmp"⟩, ⟨"b", "B", "2.2.2.2", "icmp"⟩, ⟨"c", "C", "3.3.3.3", "dns"⟩] 60 10 8 [])
      "a" 0 :=
  (schedulers_mirror.1 [.sync [⟨"a", "A", "1.1.1.1", "icmp"⟩] 60 10 8 []]
    [⟨"a", "A'", "1.1.1.1", "icmp"⟩, ⟨"b", "B", "2.2.2.2", "icmp"⟩, ⟨"c", "C", "3.3.3.3", "dns"⟩] 60 10 8 []).2
    [] ⟨⟨"a", "A'", "1.1.1.1", "icmp"⟩, 60, 10⟩ [⟨⟨"b", "B", "2.2.2.2", "icmp"⟩, 60, 10⟩] 0
    ⟨⟨⟨"a", "A", "1.1.1.1", "icmp"⟩, 60, 10⟩, false, false⟩ rfl (by decide) (by decide) (by decide) (by decide) rfl (by decide)
    ⟨rfl, rfl, rfl, rfl, rfl⟩

end ServerBee.Schedulers
