/-
The last configuration that an agent is sent is the present one.

For a domain and an agent, `upcoming` is the last message of the domain once the holder of the domain's lock is done: its
forecast, or else what was sent last. Either `upcoming` is the projection of the present state, or a task that has not yet
begun to read will send the agent one (`Owed`). A mutation owes before it commits, and so does a report of capabilities;
a reconcile that gets the lock forecasts the projection, whatever the holder before it had read.

- `forecast_program`, `local_program`: what the scripts will send, and on what of the state it depends.
- `advance_current`: the steps of the tasks.
- `last_message_current`: the theorem about runs.
-/
import ServerBee.DesiredState.Model

namespace ServerBee.DesiredState

open ServerBee.Lib
open ServerBee.Firewall (hasCapability)

variable (presets : ℕ → Option TargetDto)

/-! ## Projections -/

/-- the reported capabilities; before a report, the mirrored ones -/
def View.capabilities (v : View) (n : ℕ) : ℕ := ((v.agentLocalCapabilities n).or (v.mirror n)).getD capDefault

def View.targets (v : View) (n : ℕ) : List TargetDto :=
  (v.db.targetIds n).filterMap presets ++ v.db.dbTargets presets (v.db.targetIds n)

/-- what the agent should execute -/
def projection (v : View) (n : ℕ) : Domain → Msg
  | .pingTasks => .pingTasksSync (pingConfigsForAgent v.db.pingTasks n (v.capabilities n))
  | .networkProbes => .networkProbeSync (v.targets presets n) v.db.probeSetting.interval v.db.probeSetting.packetCount
  | .ipQuality => .ipQualitySync v.db.enabledServiceDefs v.db.checkIntervalHours.toNat

/-- scope, capability and interval of the ping tasks that are sent -/
theorem mem_pingConfigsForAgent {tasks : List PingTask} {n capabilities : ℕ} {config : PingTaskConfig} :
    config ∈ pingConfigsForAgent tasks n capabilities ↔ ∃ task ∈ tasks, ∃ serverIds capability,
      task.serverIds = some serverIds ∧ (serverIds = [] ∨ n ∈ serverIds) ∧ probeTypeToCap task.probeType = some capability ∧
        hasCapability capabilities capability = true ∧ 0 ≤ task.interval ∧
          config = ⟨task.id, task.probeType, task.target, task.interval.toNat⟩ := by
  rw [pingConfigsForAgent, List.mem_filterMap]
  refine exists_congr fun task => and_congr_right fun _ => ?_
  unfold pingConfigForAgent
  cases task.serverIds with
  | none => simp
  | some serverIds =>
    cases probeTypeToCap task.probeType with
    | none => simp
    | some capability =>
      dsimp only
      by_cases hscope : ¬ serverIds.isEmpty ∧ ¬ serverIds.contains n
      · rw [if_pos hscope]
        simp only [List.isEmpty_iff, List.contains_iff_mem] at hscope
        refine iff_of_false (by simp) ?_
        rintro ⟨serverIds', -, hids, hmem, -⟩
        obtain rfl := Option.some.inj hids
        exact hmem.elim hscope.1 hscope.2
      · rw [if_neg hscope]
        simp only [List.isEmpty_iff, List.contains_iff_mem] at hscope
        have hscope : serverIds = [] ∨ n ∈ serverIds := by tauto
        by_cases hcap : hasCapability capabilities capability = true
        · by_cases hneg : task.interval < 0
          · rw [if_neg (not_not.2 hcap), if_pos hneg]
            refine iff_of_false (by simp) ?_
            rintro ⟨-, -, -, -, -, -, hpos, -⟩
            exact absurd hneg (not_lt.2 hpos)
          · rw [if_neg (not_not.2 hcap), if_neg hneg]
            constructor
            · intro h
              exact ⟨serverIds, capability, rfl, hscope, rfl, hcap, not_lt.1 hneg, (Option.some.inj h).symm⟩
            · rintro ⟨-, -, -, -, -, -, -, rfl⟩
              rfl
        · rw [if_pos hcap]
          refine iff_of_false (by simp) ?_
          rintro ⟨-, capability', -, -, heq, hcap', -⟩
          obtain rfl := Option.some.inj heq
          exact hcap hcap'

theorem ipQualityIntervalHours_valid (db : Db) :
    ipQualityIntervalHours db.checkIntervalHours = some db.checkIntervalHours.toNat := by
  have hpos : ¬ db.checkIntervalHours < 0 := by
    unfold Db.checkIntervalHours
    cases h : db.ipQuality.checkInterval with
    | none => decide
    | some hours =>
      have hle := hours.2.1
      simp only [Option.map_some, Option.getD_some]
      omega
  rw [ipQualityIntervalHours, if_neg hpos]

/-! ## What the scripts will send -/

/-- what the configuration of an agent depends on -/
def Same (d : Domain) (n : ℕ) (v v' : View) : Prop :=
  (n ∈ v.connected ↔ n ∈ v'.connected) ∧
    match d with
    | .pingTasks => v.db.pings = v'.db.pings ∧
        ∃ caps, v.agentLocalCapabilities n = some caps ∧ v'.agentLocalCapabilities n = some caps
    | .networkProbes => v.db.probes.setting = v'.db.probes.setting ∧ v.db.probes.targets = v'.db.probes.targets ∧
        v.db.targetIds n = v'.db.targetIds n
    | .ipQuality => v.db.ipQuality = v'.db.ipQuality

variable {presets}

theorem Same.projection {d : Domain} {n : ℕ} {v v' : View} (h : Same d n v v') :
    projection presets v n d = projection presets v' n d := by
  obtain ⟨-, h⟩ := h
  cases d with
  | pingTasks =>
    obtain ⟨hpings, caps, hcaps, hcaps'⟩ := h
    simp only [DesiredState.projection, Db.pingTasks, View.capabilities, hpings, hcaps, hcaps', Option.some_or]
  | networkProbes =>
    obtain ⟨hsetting, htargets, hids⟩ := h
    simp only [DesiredState.projection, View.targets, Db.probeSetting, Db.dbTargets, hsetting, htargets, hids]
  | ipQuality =>
    have h : v.db.ipQuality = v'.db.ipQuality := h
    simp only [DesiredState.projection, Db.enabledServiceDefs, Db.checkIntervalHours, h]

theorem forecast_sendNetworkProbes (m : ℕ) (setting : NetworkProbeSetting) (k : Reconcile) (v : View) (n : ℕ) :
    (sendNetworkProbes presets m setting k).forecast v n = (k.forecast v n).or
      (if m = n then some (.networkProbeSync (v.targets presets n) setting.interval setting.packetCount) else none) := by
  simp only [sendNetworkProbes, Script.forecast]
  split_ifs with hempty hm hm
  · subst hm
    have hnone : v.db.dbTargets presets (v.db.targetIds m) = [] := by
      simp [Db.dbTargets, List.isEmpty_iff.1 hempty]
    simp [Script.forecast, View.targets, hnone]
  · simp [Script.forecast, hm]
  · subst hm
    simp [Script.forecast, View.targets]
  · simp [Script.forecast, hm]

/-- the call is for the agent -/
def Covers (v : View) (n : ℕ) : Option ℕ → Prop
  | none => n ∈ v.connected
  | some m => m = n

instance (v : View) (n : ℕ) : ∀ scope, Decidable (Covers v n scope)
  | none => inferInstanceAs (Decidable (n ∈ v.connected))
  | some m => inferInstanceAs (Decidable (m = n))

theorem forecast_pings (ids : List ℕ) (tasks : List PingTask) (caps : ℕ → ℕ) (v : View) (n : ℕ) :
    (Script.forEach ids fun m k => sendPingTasks m tasks (caps m) k).forecast v n =
      if n ∈ ids then some (.pingTasksSync (pingConfigsForAgent tasks n (caps n))) else none := by
  refine Script.forecast_forEach (fun _ m => Msg.pingTasksSync (pingConfigsForAgent tasks m (caps m)))
    (fun m k v' n' => ?_) ids v n
  show (k.forecast v' n').or _ = _
  by_cases hm : m = n'
  · rw [hm]
  · rw [if_neg hm, if_neg hm]

theorem forecast_probes (ids : List ℕ) (setting : NetworkProbeSetting) (v : View) (n : ℕ) :
    (Script.forEach ids fun m k => sendNetworkProbes presets m setting k).forecast v n =
      if n ∈ ids then some (.networkProbeSync (v.targets presets n) setting.interval setting.packetCount) else none :=
  Script.forecast_forEach (fun v' m => Msg.networkProbeSync (v'.targets presets m) setting.interval setting.packetCount)
    (fun m k v' n' => by
      by_cases hm : m = n'
      · rw [forecast_sendNetworkProbes, hm]
      · rw [forecast_sendNetworkProbes, if_neg hm]) ids v n

theorem forecast_ipQuality (ids : List ℕ) (services : List UnlockServiceDef) (hours : ℕ) (v : View) (n : ℕ) :
    (Script.forEach ids fun m k => (Script.send m (.ipQualitySync services hours) k : Reconcile)).forecast v n =
      if n ∈ ids then some (.ipQualitySync services hours) else none :=
  Script.forecast_forEach (fun _ _ => Msg.ipQualitySync services hours) (fun _ _ _ _ => rfl) ids v n

/-- a script that starts now sends the present configuration, to each agent that it is for -/
theorem forecast_program (scope : Option ℕ) (d : Domain) (v : View) (n : ℕ) :
    (program presets scope d).forecast v n = if Covers v n scope then some (projection presets v n d) else none := by
  cases scope with
  | none =>
    cases d with
    | pingTasks => exact forecast_pings v.connected v.db.pingTasks v.capabilities v n
    | networkProbes => exact forecast_probes v.connected v.db.probeSetting v n
    | ipQuality =>
      simp only [program, reconcileConnected, loadIpQuality, Script.forecast, ipQualityIntervalHours_valid]
      exact forecast_ipQuality v.connected v.db.enabledServiceDefs v.db.checkIntervalHours.toNat v n
  | some m =>
    cases d with
    | pingTasks =>
      simp only [program, reconcileAgent, capabilitiesForAgent, Script.forecast]
      cases hcaps : v.agentLocalCapabilities m <;> by_cases hm : m = n <;>
        simp_all [sendPingTasks, Script.forecast, projection, View.capabilities, Covers]
    | networkProbes =>
      have hsend := @forecast_sendNetworkProbes presets m v.db.probeSetting .done v n
      exact hsend.trans (Option.none_or ..)
    | ipQuality =>
      simp only [program, reconcileAgent, loadIpQuality, Script.forecast, ipQualityIntervalHours_valid]
      exact Option.none_or ..

section Local

variable {n : ℕ}

theorem local_sendNetworkProbes (m : ℕ) (setting : NetworkProbeSetting) {k : Reconcile}
    (hk : k.Local (Same .networkProbes n) n) : (sendNetworkProbes presets m setting k).Local (Same .networkProbes n) n := by
  refine fun v hv => ⟨?_, fun v' h => ?_⟩
  · dsimp only
    split_ifs
    · exact hk
    · refine fun v' hv' => ⟨hk, fun v'' h => ?_⟩
      -- the targets are read after the configuration
      obtain ⟨-, -, htargets, -⟩ := id h
      simp only [Script.forecast, Db.dbTargets, htargets, hk.forecast hv' h]
  · have hforecast := @forecast_sendNetworkProbes presets m setting k
    have htargets : v.targets presets n = v'.targets presets n := by
      obtain ⟨-, -, htargets, hids⟩ := h
      simp only [View.targets, Db.dbTargets, htargets, hids]
    refine (hforecast v n).trans (Eq.trans ?_ (hforecast v' n).symm)
    rw [hk.forecast hv h, htargets]

theorem local_loadIpQuality {k : List UnlockServiceDef → ℕ → Reconcile}
    (hk : ∀ services hours, (k services hours).Local (Same .ipQuality n) n) :
    (loadIpQuality k).Local (Same .ipQuality n) n := by
  have hread : ∀ {v v' : View}, Same .ipQuality n v v' →
      v.db.enabledServiceDefs = v'.db.enabledServiceDefs ∧ v.db.checkIntervalHours = v'.db.checkIntervalHours := by
    intro v v' h
    have h : v.db.ipQuality = v'.db.ipQuality := h.2
    simp only [Db.enabledServiceDefs, Db.checkIntervalHours, h, and_self]
  refine fun v hv => ⟨fun v' hv' => ⟨?_, fun v'' h => ?_⟩, fun v' h => ?_⟩
  · simp only [ipQualityIntervalHours_valid]
    exact hk _ _
  · simp only [ipQualityIntervalHours_valid, (hread h).2]
    exact (hk _ _).forecast hv' h
  · simp only [Script.forecast, ipQualityIntervalHours_valid, (hread h).1, (hread h).2]
    exact (hk _ _).forecast hv h

theorem local_sendPingTasks (m : ℕ) (tasks : List PingTask) :
    (capabilitiesForAgent m fun capabilities => sendPingTasks m tasks capabilities .done).Local (Same .pingTasks n) n := by
  have hsend : ∀ (capabilities : ℕ) (v : View), m ≠ n → (sendPingTasks m tasks capabilities .done).forecast v n = none :=
    fun capabilities v hm => if_neg hm
  refine fun v hv => ?_
  obtain ⟨-, -, caps, hcaps, -⟩ := id hv
  by_cases hm : m = n
  · subst hm
    refine ⟨?_, fun v' h => ?_⟩
    · dsimp only
      rw [hcaps]
      trivial
    · obtain ⟨-, -, caps', hcaps', hcaps''⟩ := h
      dsimp only
      rw [hcaps', hcaps'']
      rfl
  · have hnone : ∀ v : View,
        (capabilitiesForAgent m fun capabilities => sendPingTasks m tasks capabilities .done).forecast v n = none := by
      intro v
      unfold capabilitiesForAgent
      dsimp only [Script.forecast]
      cases v.agentLocalCapabilities m with
      | some capabilities => exact hsend _ _ hm
      | none => exact hsend _ _ hm
    refine ⟨?_, fun v' _ => (hnone v).trans (hnone v').symm⟩
    dsimp only
    cases v.agentLocalCapabilities m with
    | some capabilities => trivial
    | none => exact fun v' _ => ⟨trivial, fun v'' _ => (hsend _ _ hm).trans (hsend _ _ hm).symm⟩

theorem local_program (scope : Option ℕ) (d : Domain) : (program presets scope d).Local (Same d n) n := by
  cases scope with
  | none =>
    cases d with
    | pingTasks =>
      have hsend : ∀ (ids : List ℕ) (tasks : List PingTask) (caps : ℕ → ℕ),
          (Script.forEach ids fun m k => sendPingTasks m tasks (caps m) k).Local (Same .pingTasks n) n :=
        fun ids tasks caps => Script.local_forEach (f := fun m k => sendPingTasks m tasks (caps m) k) (fun m k hk => hk) ids
      refine fun v _ => ⟨fun v₁ _ => ⟨fun v₂ _ => ⟨fun v₃ _ => ⟨hsend _ _ _, fun v₃' h => ?_⟩, fun v₂' h => ?_⟩,
        fun v₁' h => ?_⟩, fun v' h => ?_⟩
      all_goals
        obtain ⟨hconn, hpings, caps, hcaps, hcaps'⟩ := h
        refine (forecast_pings ..).trans (Eq.trans ?_ (forecast_pings ..).symm)
        simp only [hcaps, hcaps', Option.some_or, Db.pingTasks, hpings, hconn]
    | networkProbes =>
      have hsend : ∀ (ids : List ℕ) (setting : NetworkProbeSetting),
          (Script.forEach ids fun m k => sendNetworkProbes presets m setting k).Local (Same .networkProbes n) n :=
        fun ids setting => Script.local_forEach (fun m k hk => local_sendNetworkProbes m setting hk) ids
      refine fun v _ => ⟨fun v₁ _ => ⟨hsend _ _, fun v₁' h => ?_⟩, fun v' h => ?_⟩
      all_goals
        obtain ⟨hconn, hsetting, htargets, hids⟩ := h
        refine (forecast_probes ..).trans (Eq.trans ?_ (forecast_probes ..).symm)
        simp only [View.targets, Db.dbTargets, Db.probeSetting, hsetting, htargets, hids, hconn]
    | ipQuality =>
      have hsend : ∀ (ids : List ℕ) (services : List UnlockServiceDef) (hours : ℕ),
          (Script.forEach ids fun m k => (Script.send m (.ipQualitySync services hours) k : Reconcile)).Local
            (Same .ipQuality n) n := fun ids services hours =>
        Script.local_forEach (f := fun m k => Script.send m (Msg.ipQualitySync services hours) k) (fun m k hk => hk) ids
      refine fun v _ => ⟨local_loadIpQuality fun services hours => hsend _ _ _, fun v' h => ?_⟩
      simp only [loadIpQuality, Script.forecast, ipQualityIntervalHours_valid]
      refine (forecast_ipQuality ..).trans (Eq.trans ?_ (forecast_ipQuality ..).symm)
      obtain ⟨hconn, hdb⟩ := h
      have hdb : v.db.ipQuality = v'.db.ipQuality := hdb
      simp only [Db.enabledServiceDefs, Db.checkIntervalHours, hdb, hconn]
  | some m =>
    cases d with
    | pingTasks =>
      refine fun v hv => ⟨local_sendPingTasks m _, fun v' h => ?_⟩
      have htasks : v.db.pingTasks = v'.db.pingTasks := congrArg (List.filter fun t : PingTask => t.enabled) h.2.1
      dsimp only
      rw [htasks]
      exact (local_sendPingTasks m _).forecast hv h
    | networkProbes =>
      refine fun v hv => ⟨local_sendNetworkProbes m _ trivial, fun v' h => ?_⟩
      have hsetting : v.db.probeSetting = v'.db.probeSetting := by simp only [Db.probeSetting, h.2.1]
      dsimp only
      rw [hsetting]
      exact (local_sendNetworkProbes m _ (k := .done) trivial).forecast hv h
    | ipQuality =>
      exact local_loadIpQuality (k := fun services hours => .send m (.ipQualitySync services hours) .done) fun _ _ => trivial

end Local

theorem sends_program (scope : Option ℕ) (d : Domain) : (program presets scope d).Sends fun m => m.domain = d := by
  have hpings : ∀ m tasks caps (k : Reconcile), k.Sends (fun m => m.domain = .pingTasks) →
      (sendPingTasks m tasks caps k).Sends fun m => m.domain = .pingTasks := fun m tasks caps k hk => ⟨rfl, hk⟩
  have hprobes : ∀ m setting (k : Reconcile), k.Sends (fun m => m.domain = .networkProbes) →
      (sendNetworkProbes presets m setting k).Sends fun m => m.domain = .networkProbes := by
    intro m setting k hk
    refine ⟨fun v => ?_, hk⟩
    dsimp only
    split_ifs
    · exact ⟨rfl, hk⟩
    · exact ⟨fun v => ⟨rfl, hk⟩, hk⟩
  have hipQuality : ∀ k : List UnlockServiceDef → ℕ → Reconcile,
      (∀ services hours, (k services hours).Sends fun m => m.domain = .ipQuality) →
        (loadIpQuality k).Sends fun m => m.domain = .ipQuality := by
    intro k hk
    refine ⟨fun v => ⟨fun v' => ?_, trivial⟩, trivial⟩
    simp only [ipQualityIntervalHours_valid]
    exact hk _ _
  cases scope with
  | none =>
    cases d with
    | pingTasks =>
      exact fun v => ⟨fun v₁ => ⟨fun v₂ v₃ => Script.sends_forEach (fun m k hk => hpings m _ _ k hk) _, trivial⟩, trivial⟩
    | networkProbes => exact fun v => ⟨fun v₁ => Script.sends_forEach (fun m k hk => hprobes m _ k hk) _, trivial⟩
    | ipQuality =>
      refine fun v => hipQuality _ fun services hours => ?_
      exact Script.sends_forEach (P := fun m => m.domain = .ipQuality)
        (f := fun m k => Script.send m (Msg.ipQualitySync services hours) k) (fun m k hk => ⟨rfl, hk⟩) _
  | some m =>
    cases d with
    | pingTasks =>
      refine ⟨fun v v' => ?_, trivial⟩
      dsimp only
      cases v'.agentLocalCapabilities m with
      | some capabilities => exact hpings m _ _ _ trivial
      | none => exact ⟨fun v => hpings m _ _ _ trivial, trivial⟩
    | networkProbes => exact ⟨fun v => hprobes m _ _ trivial, trivial⟩
    | ipQuality =>
      exact hipQuality (fun services hours => .send m (.ipQualitySync services hours) .done) fun services hours => ⟨rfl, trivial⟩

/-! ## What an agent is owed -/

def Task.owes (v : View) (d : Domain) (n : ℕ) : Task → Prop
  | .idle => False
  | .mutating d' scope _ => d' = d ∧ Covers v n scope
  | .recording m _ => m = n
  | .waiting scope d' rest => Covers v n scope ∧ (d' = d ∨ d ∈ rest)
  | .holding scope _ rest => Covers v n scope ∧ d ∈ rest

namespace Sys

variable (s : Sys) (d : Domain) (n : ℕ)

/-- the last message of the domain on the agent's channel -/
def last : Option Msg := ((s.sent n).filter fun m => m.domain = d).getLast?

/-- the same, once the holder of the domain's lock is done -/
def upcoming : Option Msg := ((s.held d).bind fun p => p.forecast s.view n).or (s.last d n)

def owed : Prop := ∃ t, (s.tasks t).owes s.view d n

end Sys

variable (presets) in
structure Settled (s : Sys) (d : Domain) (n : ℕ) : Prop where
  holder : ∀ p, s.held d = some p → p.Local (Same d n) n
  upcoming : s.upcoming d n = some (projection presets s.view n d)

variable (presets) in
def Current (s : Sys) (n : ℕ) : Prop := ∀ d, s.owed d n ∨ Settled presets s d n

section Frame

variable {s s' : Sys} {d : Domain} {n t : ℕ} {task : Task}

theorem goto_self : (s.goto t task).tasks t = task := Function.update_self ..

theorem goto_ne {t' : ℕ} (h : t' ≠ t) : (s.goto t task).tasks t' = s.tasks t' := Function.update_of_ne h ..

theorem owed_goto (h : s.owed d n) (hkeep : (s.tasks t).owes s.view d n → task.owes s.view d n) : (s.goto t task).owed d n := by
  obtain ⟨t', ht'⟩ := h
  by_cases heq : t' = t
  · subst heq
    exact ⟨t', by rw [goto_self]; exact hkeep ht'⟩
  · exact ⟨t', by rw [goto_ne heq]; exact ht'⟩

theorem covers_congr {v v' : View} (h : n ∈ v.connected ↔ n ∈ v'.connected) (scope : Option ℕ) :
    Covers v n scope ↔ Covers v' n scope := by
  cases scope with
  | none => exact h
  | some m => exact Iff.rfl

theorem owes_congr {v v' : View} (h : n ∈ v.connected ↔ n ∈ v'.connected) (task : Task) :
    task.owes v d n ↔ task.owes v' d n := by
  cases task with
  | idle => exact Iff.rfl
  | mutating d' scope changes => exact and_congr_right fun _ => covers_congr h scope
  | recording m caps => exact Iff.rfl
  | waiting scope d' rest => exact and_congr_left fun _ => covers_congr h scope
  | holding scope d' rest => exact and_congr_left fun _ => covers_congr h scope

/-- a step that the configuration of the agent does not depend on -/
theorem Settled.frame (h : Settled presets s d n) (hsame : Same d n s.view s'.view) (hvalid : Same d n s.view s.view)
    (hheld : s'.held d = s.held d) (hlast : s'.last d n = s.last d n) : Settled presets s' d n := by
  refine ⟨fun p hp => h.holder p (hheld ▸ hp), ?_⟩
  rw [← hsame.projection, ← h.upcoming]
  unfold Sys.upcoming
  rw [hheld, hlast]
  cases hp : s.held d with
  | none => rfl
  | some p => simp only [Option.bind_some, (h.holder p hp).forecast hvalid hsame]

end Frame

/-! ## Steps of the tasks -/

/-- what holds in every state: connected agents have capabilities, and a lock is held by a task whose script sends messages
of the domain -/
structure Sound (s : Sys) : Prop where
  seeded : ∀ n ∈ s.view.connected, ∃ caps, s.view.agentLocalCapabilities n = some caps
  sends : ∀ d p, s.held d = some p → p.Sends fun m => m.domain = d
  holder : ∀ d p, s.held d = some p → ∃ t scope rest, s.tasks t = .holding scope d rest

section Advance

variable {s : Sys} {d : Domain} {n t : ℕ}

theorem same_self (h : Sound s) (hn : n ∈ s.view.connected) (d : Domain) : Same d n s.view s.view := by
  obtain ⟨caps, hcaps⟩ := h.seeded n hn
  refine ⟨Iff.rfl, ?_⟩
  cases d with
  | pingTasks => exact ⟨rfl, caps, hcaps, hcaps⟩
  | networkProbes => exact ⟨rfl, rfl, rfl⟩
  | ipQuality => rfl

/-- a change that does not concern the agent -/
theorem same_commit (h : Sound s) (hn : n ∈ s.view.connected) {d' : Domain} {scope : Option ℕ} (change : Change d' scope)
    (hnot : ¬ (d' = d ∧ Covers s.view n scope)) : Same d n s.view (s.view.commit change) := by
  obtain ⟨caps, hcaps⟩ := h.seeded n hn
  refine ⟨Iff.rfl, ?_⟩
  cases change with
  | pings f =>
    cases d with
    | pingTasks => exact absurd ⟨rfl, hn⟩ hnot
    | networkProbes => exact ⟨rfl, rfl, rfl⟩
    | ipQuality => rfl
  | probes f =>
    cases d with
    | pingTasks => exact ⟨rfl, caps, hcaps, hcaps⟩
    | networkProbes => exact absurd ⟨rfl, hn⟩ hnot
    | ipQuality => rfl
  | serverTargets m targetIds =>
    cases d with
    | pingTasks => exact ⟨rfl, caps, hcaps, hcaps⟩
    | networkProbes =>
      have hne : m ≠ n := fun hm => hnot ⟨rfl, hm⟩
      refine ⟨rfl, rfl, ?_⟩
      -- the assignments of the others stay
      simp only [Db.targetIds, View.commit, Change.apply, List.filter_append, List.filter_filter, List.map_append]
      have hnew : (targetIds.map fun id => (⟨m, id⟩ : NetworkProbeConfig)).filter (fun c => c.serverId == n) = [] := by
        simp [hne]
      rw [hnew, List.map_nil, List.append_nil]
      refine congrArg (List.map _) (List.filter_congr fun c _ => ?_)
      by_cases hc : c.serverId = n
      · simp [hc, hne.symm]
      · simp [hc]
    | ipQuality => rfl
  | ipQuality f =>
    cases d with
    | pingTasks => exact ⟨rfl, caps, hcaps, hcaps⟩
    | networkProbes => exact ⟨rfl, rfl, rfl⟩
    | ipQuality => exact absurd ⟨rfl, hn⟩ hnot

theorem same_record (h : Sound s) (hn : n ∈ s.view.connected) {m : ℕ} (hm : m ≠ n) (capabilities : Option ℕ) :
    Same d n s.view (s.view.record m capabilities) := by
  obtain ⟨caps, hcaps⟩ := h.seeded n hn
  refine ⟨Iff.rfl, ?_⟩
  cases d with
  | pingTasks => exact ⟨rfl, caps, hcaps, (Function.update_of_ne hm.symm ..).trans hcaps⟩
  | networkProbes => exact ⟨rfl, rfl, rfl⟩
  | ipQuality => rfl

theorem emit_frame (out : Option (ℕ × Msg)) : (s.emit out).view = s.view ∧ (s.emit out).held = s.held ∧ (s.emit out).tasks = s.tasks := by
  cases out with
  | none => exact ⟨rfl, rfl, rfl⟩
  | some p =>
    unfold Sys.emit
    dsimp only
    split_ifs <;> exact ⟨rfl, rfl, rfl⟩

/-- a message of the domain to the agent is its last one -/
theorem last_emit (hn : n ∈ s.view.connected) {out : Option (ℕ × Msg)} {d' : Domain} (hout : ∀ m msg, out = some (m, msg) → msg.domain = d') :
    (s.emit out).last d n = if d' = d then (Script.sentTo out n).or (s.last d n) else s.last d n := by
  cases out with
  | none => split_ifs <;> rfl
  | some p =>
    obtain ⟨m, msg⟩ := p
    have hmsg : msg.domain = d' := hout m msg rfl
    unfold Sys.emit Sys.last Script.sentTo
    by_cases hm : m = n
    · subst hm
      simp only [hn, if_true, Function.update_self, List.filter_append, Option.bind_some]
      by_cases hd : d' = d
      · simp [hmsg, hd]
      · simp [hmsg, hd]
    · by_cases hconn : m ∈ s.view.connected
      · simp [hconn, Function.update_of_ne (Ne.symm hm), hm]
      · simp [hconn, hm]

theorem hold_self {p : Option Reconcile} : (s.hold d p).held d = p := Function.update_self ..

theorem hold_ne {d' : Domain} {p : Option Reconcile} (h : d' ≠ d) : (s.hold d' p).held d = s.held d :=
  Function.update_of_ne h.symm ..

/-- the steps of the tasks, when no statement fails -/
theorem advance_current (h : Sound s) (hn : n ∈ s.view.connected) (hc : Current presets s n) :
    Current presets (s.advance presets t true) n := by
  intro d
  have hself := same_self h hn d
  unfold Sys.advance
  cases htask : s.tasks t with
  | idle => exact hc d
  | mutating d' scope changes =>
    cases changes with
    | nil =>
      refine (hc d).imp (fun ho => owed_goto ho fun howes => ?_) fun hs => hs.frame hself hself rfl rfl
      rw [htask] at howes
      exact ⟨howes.2, Or.inl howes.1⟩
    | cons change changes =>
      by_cases hmine : d' = d ∧ Covers s.view n scope
      · exact Or.inl ⟨t, by rw [goto_self]; exact hmine⟩
      · refine (hc d).imp (fun ho => ?_) fun hs => hs.frame (same_commit h hn change hmine) hself rfl rfl
        refine owed_goto (s := s.see (s.view.commit change)) ho fun howes => ?_
        have howes : (s.tasks t).owes s.view d n := howes
        rwa [htask] at howes
  | recording m capabilities =>
    by_cases hm : m = n
    · refine Or.inl ⟨t, ?_⟩
      rw [goto_self]
      refine ⟨hm, ?_⟩
      cases d <;> simp
    · refine (hc d).imp (fun ho => ?_) fun hs => hs.frame (same_record h hn hm (some capabilities)) hself rfl rfl
      refine owed_goto (s := s.see (s.view.record m (some capabilities))) ho fun howes => ?_
      have howes : (s.tasks t).owes s.view d n := howes
      rw [htask] at howes
      exact absurd howes hm
  | waiting scope d' rest =>
    dsimp only
    cases hheld : s.held d' with
    | some p => exact hc d
    | none =>
      by_cases hmine : d' = d ∧ Covers s.view n scope
      · obtain ⟨rfl, hcov⟩ := hmine
        -- all that the script reads is still to come
        refine Or.inr ⟨fun p hp => ?_, ?_⟩
        · obtain rfl : program presets scope d' = p := Option.some.inj (hold_self.symm.trans hp)
          exact local_program scope d'
        · have hup : (program presets scope d').forecast s.view n = some (projection presets s.view n d') := by
            rw [forecast_program, if_pos hcov]
          show (((s.hold d' (some (program presets scope d'))).held d').bind fun p => p.forecast s.view n).or _ = _
          rw [hold_self, Option.bind_some, hup, Option.some_or]
          rfl
      · refine (hc d).imp (fun ho => owed_goto (s := s.hold d' _) ho fun howes => ?_) fun hs => ?_
        · have howes : (s.tasks t).owes s.view d n := howes
          rw [htask] at howes
          exact ⟨howes.1, howes.2.resolve_left fun hd => hmine ⟨hd, howes.1⟩⟩
        · by_cases hd : d' = d
          · subst hd
            refine ⟨fun p hp => ?_, ?_⟩
            · obtain rfl : program presets scope d' = p := Option.some.inj (hold_self.symm.trans hp)
              exact local_program scope d'
            · have hup : (program presets scope d').forecast s.view n = none := by
                rw [forecast_program, if_neg fun hcov => hmine ⟨rfl, hcov⟩]
              have hlast : s.last d' n = some (projection presets s.view n d') := by
                rw [← hs.upcoming, Sys.upcoming, hheld]
                rfl
              show (((s.hold d' (some (program presets scope d'))).held d').bind fun p => p.forecast s.view n).or _ = _
              rw [hold_self, Option.bind_some, hup, Option.none_or]
              exact hlast
          · exact hs.frame hself hself (hold_ne hd) rfl
  | holding scope d' rest =>
    dsimp only
    cases hheld : s.held d' with
    | none => exact hc d
    | some p =>
      dsimp only
      split_ifs with hdone
      · refine (hc d).imp (fun ho => owed_goto (s := s.hold d' none) ho fun howes => ?_) fun hs => ?_
        · have howes : (s.tasks t).owes s.view d n := howes
          rw [htask] at howes
          cases rest with
          | nil => cases howes.2
          | cons d₁ rest => exact ⟨howes.1, (List.mem_cons.1 howes.2).imp_left Eq.symm⟩
        · by_cases hd : d' = d
          · subst hd
            obtain rfl : p = .done := by
              cases p with
              | done => rfl
              | look k => cases hdone
              | query k failed => cases hdone
              | send m msg k => cases hdone
            refine ⟨fun p hp => ?_, ?_⟩
            · cases hold_self.symm.trans hp
            · have hup := hs.upcoming
              unfold Sys.upcoming at hup ⊢
              rw [hheld] at hup
              show (((s.hold d' none).held d').bind fun p => p.forecast s.view n).or _ = _
              rw [hold_self]
              exact hup
          · exact hs.frame hself hself (hold_ne hd) rfl
      · set out := (p.step true s.view).1 with hout
        set s' := s.hold d' (some (p.step true s.view).2) with hs'
        obtain ⟨hview, hheld', htasks⟩ := emit_frame (s := s') out
        have hdomain := ((h.sends d' p hheld).step true s.view).2
        have hlast := last_emit (s := s') (d := d) (n := n) hn hdomain
        refine (hc d).imp ?_ fun hs => ?_
        · rintro ⟨t', ht'⟩
          exact ⟨t', by rwa [hview, htasks]⟩
        · by_cases hd : d' = d
          · subst hd
            have hheld'' : (s'.emit out).held d' = some (p.step true s.view).2 := by rw [hheld', hs', hold_self]
            refine ⟨fun p' hp' => ?_, ?_⟩
            · obtain rfl := Option.some.inj (hheld''.symm.trans hp')
              exact (hs.holder p hheld).step hself
            · have hup := hs.upcoming
              unfold Sys.upcoming at hup ⊢
              rw [hheld, Option.bind_some, Script.forecast_step, Option.or_assoc] at hup
              rw [hheld'', Option.bind_some, hlast, if_pos rfl, hview]
              exact hup
          · refine hs.frame (hview ▸ hself) hself ?_ ?_
            · rw [hheld', hs', hold_ne hd]
            · rw [hlast, if_neg hd]
              rfl

/-- a task connects nobody and leaves the other tasks -/
theorem advance_frame (t : ℕ) (ok : Bool) :
    (s.advance presets t ok).view.connected = s.view.connected ∧
      ∀ t' ≠ t, (s.advance presets t ok).tasks t' = s.tasks t' := by
  unfold Sys.advance
  cases s.tasks t with
  | idle => exact ⟨rfl, fun _ _ => rfl⟩
  | mutating d' scope changes =>
    cases changes with
    | nil => exact ⟨rfl, fun t' ht' => goto_ne ht'⟩
    | cons change changes => exact ⟨rfl, fun t' ht' => goto_ne ht'⟩
  | recording m capabilities => exact ⟨rfl, fun t' ht' => goto_ne ht'⟩
  | waiting scope d' rest =>
    dsimp only
    cases s.held d' with
    | some p => exact ⟨rfl, fun _ _ => rfl⟩
    | none => exact ⟨rfl, fun t' ht' => goto_ne ht'⟩
  | holding scope d' rest =>
    dsimp only
    cases s.held d' with
    | none => exact ⟨rfl, fun _ _ => rfl⟩
    | some p =>
      dsimp only
      split_ifs
      · exact ⟨rfl, fun t' ht' => goto_ne ht'⟩
      · obtain ⟨hview, -, htasks⟩ := emit_frame (s := s.hold d' (some (p.step ok s.view).2)) (p.step ok s.view).1
        rw [hview, htasks]
        exact ⟨rfl, fun _ _ => rfl⟩

theorem Sound.goto (h : Sound s) {task : Task} (hheld : ∀ d p, s.held d = some p → ∃ t' scope rest, (s.goto t task).tasks t' = .holding scope d rest) :
    Sound (s.goto t task) := ⟨h.seeded, h.sends, hheld⟩

/-- the holders stay, when a task moves that holds nothing -/
theorem holder_goto (h : Sound s) {task : Task} (hnot : ∀ scope d rest, s.tasks t ≠ .holding scope d rest) (d : Domain)
    (p : Reconcile) (hp : s.held d = some p) : ∃ t' scope rest, (s.goto t task).tasks t' = .holding scope d rest := by
  obtain ⟨t', scope, rest, ht'⟩ := h.holder d p hp
  refine ⟨t', scope, rest, (goto_ne fun heq => ?_).trans ht'⟩
  subst heq
  exact hnot _ _ _ ht'

theorem advance_sound (h : Sound s) (ok : Bool) : Sound (s.advance presets t ok) := by
  unfold Sys.advance
  cases htask : s.tasks t with
  | idle => exact h
  | mutating d' scope changes =>
    have hnot : ∀ scope d rest, s.tasks t ≠ .holding scope d rest := fun _ _ _ heq => by rw [htask] at heq; cases heq
    cases changes with
    | nil => exact h.goto (holder_goto h hnot)
    | cons change changes => exact ⟨h.seeded, h.sends, holder_goto h hnot⟩
  | recording m capabilities =>
    have hnot : ∀ scope d rest, s.tasks t ≠ .holding scope d rest := fun _ _ _ heq => by rw [htask] at heq; cases heq
    refine ⟨fun n hn => ?_, h.sends, holder_goto h hnot⟩
    by_cases hm : n = m
    · subst hm
      exact ⟨capabilities, Function.update_self ..⟩
    · obtain ⟨caps, hcaps⟩ := h.seeded n hn
      exact ⟨caps, (Function.update_of_ne hm ..).trans hcaps⟩
  | waiting scope d' rest =>
    dsimp only
    cases hheld : s.held d' with
    | some p => exact h
    | none =>
      refine ⟨h.seeded, fun d p hp => ?_, fun d p hp => ?_⟩
      · by_cases hd : d' = d
        · subst hd
          obtain rfl : program presets scope d' = p := Option.some.inj (hold_self.symm.trans hp)
          exact sends_program scope d'
        · exact h.sends d p ((hold_ne hd).symm.trans hp)
      · by_cases hd : d' = d
        · subst hd
          exact ⟨t, scope, rest, goto_self⟩
        · have hnot : ∀ scope d rest, s.tasks t ≠ .holding scope d rest := fun _ _ _ heq => by rw [htask] at heq; cases heq
          exact holder_goto h hnot d p ((hold_ne hd).symm.trans hp)
  | holding scope d' rest =>
    dsimp only
    cases hheld : s.held d' with
    | none => exact h
    | some p =>
      dsimp only
      split_ifs
      · have hne : ∀ {d p}, (s.hold d' none).held d = some p → d' ≠ d ∧ s.held d = some p := by
          intro d p hp
          by_cases hd : d' = d
          · subst hd
            cases hold_self.symm.trans hp
          · exact ⟨hd, (hold_ne hd).symm.trans hp⟩
        refine ⟨h.seeded, fun d p hp => h.sends d p (hne hp).2, fun d p hp => ?_⟩
        obtain ⟨hd, hp⟩ := hne hp
        obtain ⟨t', scope', rest', ht'⟩ := h.holder d p hp
        refine ⟨t', scope', rest', (goto_ne fun heq => ?_).trans ht'⟩
        subst heq
        rw [htask] at ht'
        cases ht'
        exact hd rfl
      · obtain ⟨hview, hheld', htasks⟩ := emit_frame (s := s.hold d' (some (p.step ok s.view).2)) (p.step ok s.view).1
        refine ⟨by rw [hview]; exact h.seeded, fun d p' hp' => ?_, fun d p' hp' => ?_⟩
        · rw [hheld'] at hp'
          by_cases hd : d' = d
          · subst hd
            obtain rfl := Option.some.inj (hold_self.symm.trans hp')
            exact ((h.sends d' p hheld).step ok s.view).1
          · exact h.sends d p' ((hold_ne hd).symm.trans hp')
        · rw [htasks]
          rw [hheld'] at hp'
          by_cases hd : d' = d
          · subst hd
            exact ⟨t, scope, rest, htask⟩
          · exact h.holder d p' ((hold_ne hd).symm.trans hp')

end Advance

/-! ## Runs -/

section Runs

variable {s : Sys} {n : ℕ}

/-- no statement fails -/
def ReadsSucceed (_ : Sys) : Op → Prop
  | .advance _ ok => ok = true
  | _ => True

instance : ∀ s op, Decidable (ReadsSucceed s op)
  | _, .advance _ ok => inferInstanceAs (Decidable (ok = true))
  | _, .start _ _ | _, .connect _ _ | _, .disconnect _ | _, .mirror _ _ => inferInstanceAs (Decidable True)

/-- the call is a connection reconcile of the agent, with or without new capabilities -/
def Call.Connects (n : ℕ) (call : Call) : Prop := call = .connection n ∨ ∃ caps, call = .capabilities n caps

structure Start (s : Sys) : Prop where
  tasks : ∀ t, s.tasks t = .idle
  held : ∀ d, s.held d = none
  seeded : ∀ n ∈ s.view.connected, ∃ caps, s.view.agentLocalCapabilities n = some caps

theorem Start.sound (h : Start s) : Sound s :=
  have hnone : ∀ {d p}, s.held d ≠ some p := fun {d p} hp => by rw [h.held d] at hp; cases hp
  ⟨h.seeded, fun _ _ hp => absurd hp hnone, fun _ _ hp => absurd hp hnone⟩

theorem seeded_record (h : Sound s) {m : ℕ} {capabilities : Option ℕ} {k : ℕ} (hk : k ∈ s.view.connected) (hm : k ≠ m) :
    ∃ caps, (s.view.record m capabilities).agentLocalCapabilities k = some caps := by
  obtain ⟨caps, hcaps⟩ := h.seeded k hk
  exact ⟨caps, (Function.update_of_ne hm ..).trans hcaps⟩

theorem step_sound (h : Sound s) (op : Op) : Sound (step presets s op) := by
  cases op with
  | start t call =>
    simp only [step]
    split
    · rename_i hidle
      exact h.goto (holder_goto h fun scope d rest heq => by rw [hidle] at heq; cases heq)
    · exact h
  | advance t ok => exact advance_sound h ok
  | connect m capabilities =>
    refine ⟨fun k hk => ?_, h.sends, h.holder⟩
    rcases List.mem_cons.1 hk with rfl | hk
    · exact ⟨capabilities, Function.update_self ..⟩
    · obtain ⟨hk, hne⟩ := List.mem_filter.1 hk
      exact seeded_record h hk (bne_iff_ne.1 hne)
  | disconnect m =>
    refine ⟨fun k hk => ?_, h.sends, h.holder⟩
    obtain ⟨hk, hne⟩ := List.mem_filter.1 hk
    exact seeded_record h hk (bne_iff_ne.1 hne)
  | mirror m capabilities => exact ⟨h.seeded, h.sends, h.holder⟩

/-- another agent comes or goes, or a mirror changes -/
theorem Current.other (h : Sound s) (hn : n ∈ s.view.connected) (hc : Current presets s n) {s' : Sys}
    (hconn : n ∈ s.view.connected ↔ n ∈ s'.view.connected) (hsame : ∀ d, Same d n s.view s'.view) (hheld : s'.held = s.held)
    (htasks : s'.tasks = s.tasks) (hsent : s'.sent n = s.sent n) : Current presets s' n := by
  refine fun d => (hc d).imp ?_ fun hs => hs.frame (hsame d) (same_self h hn d) (by rw [hheld]) (by rw [Sys.last, hsent, Sys.last])
  rintro ⟨t, ht⟩
  exact ⟨t, by rw [htasks]; exact (owes_congr hconn _).1 ht⟩

theorem same_connected (h : Sound s) (hn : n ∈ s.view.connected) {m : ℕ} (hm : m ≠ n) (capabilities : Option ℕ) {ids : List ℕ}
    (hids : n ∈ ids) (d : Domain) : Same d n s.view { s.view.record m capabilities with connected := ids } := by
  obtain ⟨-, hrest⟩ := same_record (d := d) h hn hm capabilities
  exact ⟨iff_of_true hn hids, hrest⟩

theorem step_current (h : Sound s) (hc : n ∈ s.view.connected → Current presets s n) {op : Op} (hreads : ReadsSucceed s op)
    (hop : ∀ caps, op ≠ .connect n caps) (hn : n ∈ (step presets s op).view.connected) : Current presets (step presets s op) n := by
  cases op with
  | start t call =>
    simp only [step] at hn ⊢
    split at hn
    · rename_i hidle
      refine fun d => (hc hn d).imp (fun ho => owed_goto ho fun howes => ?_) fun hs =>
        hs.frame (same_self h hn d) (same_self h hn d) rfl rfl
      rw [hidle] at howes
      exact howes.elim
    · exact hc hn
  | advance t ok =>
    obtain rfl : ok = true := hreads
    have hn' : n ∈ s.view.connected := by
      have hframe : (s.advance presets t true).view.connected = s.view.connected := (advance_frame t true).1
      exact hframe ▸ hn
    exact advance_current h hn' (hc hn')
  | connect m capabilities =>
    have hm : m ≠ n := fun hm => hop capabilities (by rw [hm])
    have hn' : n ∈ s.view.connected := by
      rcases List.mem_cons.1 hn with heq | hn
      · exact absurd heq.symm hm
      · exact (List.mem_filter.1 hn).1
    exact (hc hn').other h hn' (iff_of_true hn' hn) (fun d => same_connected h hn' hm _ hn d) rfl rfl
      (Function.update_of_ne hm.symm ..)
  | disconnect m =>
    obtain ⟨hn', hne⟩ := List.mem_filter.1 hn
    have hm : m ≠ n := (bne_iff_ne.1 hne).symm
    exact (hc hn').other h hn' (iff_of_true hn' hn) (fun d => same_connected h hn' hm _ hn d) rfl rfl rfl
  | mirror m capabilities =>
    have hn' : n ∈ s.view.connected := hn
    exact (hc hn').other h hn' Iff.rfl (fun d => same_self h hn' d) rfl rfl rfl

theorem start_owed {t : ℕ} (hidle : s.tasks t = .idle) {call : Call} (hcall : call.Connects n) (d : Domain) :
    (step presets s (.start t call)).owed d n := by
  have hstep : step presets s (.start t call) = s.goto t call.task := by simp only [step, hidle]
  rw [hstep]
  refine ⟨t, ?_⟩
  rw [goto_self]
  rcases hcall with rfl | ⟨caps, rfl⟩
  · refine ⟨rfl, ?_⟩
    cases d <;> simp
  · exact rfl

/-- **The last writer wins.** After a connection reconcile of an agent, once all calls have returned and if no statement has
failed, the last message of each domain that the agent was sent on its connection is the projection of the present state. -/
theorem last_message_current {pre post : List Op} {t : ℕ} {call : Call} (hstart : Start s) (hcall : call.Connects n)
    (hidle : (runs (step presets) s pre).tasks t = .idle)
    (hreads : Along (step presets) ReadsSucceed s (pre ++ .start t call :: post)) (hpost : ∀ op ∈ post, ∀ caps, op ≠ .connect n caps)
    (hreturned : ∀ t', (runs (step presets) s (pre ++ .start t call :: post)).tasks t' = .idle)
    (hconn : n ∈ (runs (step presets) s (pre ++ .start t call :: post)).view.connected) (d : Domain) :
    (runs (step presets) s (pre ++ .start t call :: post)).last d n =
      some (projection presets (runs (step presets) s (pre ++ .start t call :: post)).view n d) := by
  obtain ⟨hpre, -, hreads⟩ := along_append.1 hreads
  simp only [runs_append, runs_cons] at hreturned hconn ⊢
  set s₁ := step presets (runs (step presets) s pre) (.start t call) with hs₁
  have hsound : Sound s₁ :=
    step_sound (hpre.invariant (I := Sound) (fun s op h _ => step_sound h op) hstart.sound) _
  have hpost : Along (step presets) (fun s op => ReadsSucceed s op ∧ ∀ caps, op ≠ .connect n caps) s₁ post :=
    hreads.imp fun op hop s hs => ⟨hs, hpost op hop⟩
  have hend := hpost.invariant (I := fun s => Sound s ∧ (n ∈ s.view.connected → Current presets s n))
    (fun s op h hop => ⟨step_sound h.1 op, step_current h.1 h.2 hop.1 hop.2⟩)
    ⟨hsound, fun _ d => Or.inl (start_owed hidle hcall d)⟩
  set s₂ := runs (step presets) s₁ post with hs₂
  have hreturned : ∀ t, s₂.tasks t = .idle := hreturned
  -- nobody is left to owe anything or to hold a lock
  have howed : ¬ s₂.owed d n := by
    rintro ⟨t', ht'⟩
    rw [hreturned t'] at ht'
    exact ht'
  have hheld : s₂.held d = none := by
    refine Option.eq_none_iff_forall_ne_some.2 fun p hp => ?_
    obtain ⟨t', scope, rest, ht'⟩ := hend.1.holder d p hp
    rw [hreturned t'] at ht'
    cases ht'
  have hup := ((hend.2 hconn d).resolve_left howed).upcoming
  rw [Sys.upcoming, hheld] at hup
  exact hup

end Runs

/-! ## A mutation during a connection reconcile -/

/-- nobody is connected, and nothing is configured -/
def empty : Sys where
  view := ⟨⟨[], ⟨none, [], []⟩, ⟨[], none⟩⟩, fun _ => none, [], fun _ => none⟩
  held := fun _ => none
  tasks := fun _ => .idle
  sent := fun _ => []

def anyPing : PingTask := ⟨1, "icmp", "1.1.1.1", 60, some [], true⟩

/-- task 1 adds a ping task after task 0 has read that there is none, and both send -/
def overlap : List Op :=
  [.advance 0 true, .advance 0 true, .start 1 (.mutation .pingTasks none [.pings fun tasks => anyPing :: tasks]),
    .advance 1 true, .advance 1 true] ++ List.replicate 3 (.advance 0 true) ++ List.replicate 7 (.advance 1 true) ++
    List.replicate 10 (.advance 0 true)

def noPresets : ℕ → Option TargetDto := fun _ => none

/-- the task that an operation moves -/
def Op.task : Op → Option ℕ
  | .start t _ => some t
  | .advance t _ => some t
  | _ => none

theorem tasks_untouched {s : Sys} {t : ℕ} {ops : List Op} (h : ∀ op ∈ ops, op.task ≠ some t) :
    (runs (step presets) s ops).tasks t = s.tasks t := by
  induction ops generalizing s with
  | nil => rfl
  | cons op ops ih =>
    rw [runs_cons, ih fun op' hop' => h op' (List.mem_cons_of_mem _ hop')]
    have hop := h op List.mem_cons_self
    cases op with
    | start t' call =>
      simp only [step]
      split
      · exact goto_ne fun heq => hop (congrArg some heq.symm)
      · rfl
    | advance t' ok => exact (advance_frame t' ok).2 t fun heq => hop (congrArg some heq.symm)
    | connect m capabilities => rfl
    | disconnect m => rfl
    | mirror m capabilities => rfl

/-- the run ends with all calls returned, and the agent has the new task -/
theorem overlap_current :
    (runs (step noPresets) empty ([.connect 7 capDefault] ++ .start 0 (.connection 7) :: overlap)).last .pingTasks 7 =
      some (projection noPresets
        (runs (step noPresets) empty ([.connect 7 capDefault] ++ .start 0 (.connection 7) :: overlap)).view 7 .pingTasks) := by
  have hops : ∀ op ∈ [.connect 7 capDefault] ++ .start 0 (.connection 7) :: overlap,
      op.task = none ∨ op.task = some 0 ∨ op.task = some 1 := by
    simp [overlap, Op.task]
  have h0 : (runs (step noPresets) empty ([.connect 7 capDefault] ++ .start 0 (.connection 7) :: overlap)).tasks 0 = .idle := rfl
  have h1 : (runs (step noPresets) empty ([.connect 7 capDefault] ++ .start 0 (.connection 7) :: overlap)).tasks 1 = .idle := rfl
  refine last_message_current ⟨fun _ => rfl, fun _ => rfl, fun n hn => by cases hn⟩ (Or.inl rfl) rfl (by decide +kernel)
    (by simp [overlap]) (fun t => ?_) (by decide +kernel) .pingTasks
  by_cases ht0 : t = 0
  · exact ht0 ▸ h0
  by_cases ht1 : t = 1
  · exact ht1 ▸ h1
  refine tasks_untouched fun op hop => ?_
  rcases hops op hop with h | h | h <;> rw [h] <;> simp [Ne.symm ht0, Ne.symm ht1]

end ServerBee.DesiredState
