/-
What a clean-up changes for the servers that stay.

Lists that are emptied mean different things: a ping task or a window without a list is for all servers, so such rows are deleted;
a rule is deleted too, though one with `exclude` or `all` covers servers that it does not list; the page keeps an empty list, which shows
every server. `coverage_kept_iff` says that these two are all that goes wrong.
-/
import Mathlib.Data.List.Sublists
import ServerBee.Orphans.Model

namespace ServerBee.Orphans

open Status

variable {F : Type}

/-! ## Who is covered -/

def Task.covers (task : Task) (id : String) : Bool := (task.serverIds.getD []).contains id

/-- `ping_configs_for_agent`: an empty list is every server, a text that is no list is none -/
def PingTask.covers (task : PingTask) (id : String) : Bool :=
  match task.serverIds with
  | some ids => ids.isEmpty || ids.contains id
  | none => false

/-- `rule_covers_server` -/
def AlertRule.covers (rule : AlertRule) (id : String) : Bool :=
  if rule.coverType = "include" then (rule.serverIds.join.getD []).contains id
  else if rule.coverType = "exclude" then !(rule.serverIds.join.getD []).contains id
  else true

/-- a monitor waits for the windows of the servers that it lists -/
def ServiceMonitor.lists (monitor : ServiceMonitor) (id : String) : Bool := (monitor.serverIds.join.getD []).contains id

def IncidentServers.lists (incident : IncidentServers) (id : String) : Bool := (incident.serverIds.join.getD []).contains id

/-- the page shows the server, if it is not hidden -/
def selects (s : State F) (id : String) : Bool :=
  s.statusPage.any fun page =>
    match page.serverIds with
    | .ok ids => ids.isEmpty || ids.contains id
    | .error _ => false

/-- the rows that cover a server, by their keys -/
def coveredBy {ρ : Type} (key : ρ → String) (covers : ρ → String → Bool) (rows : List ρ) (id : String) : List String :=
  (rows.filter fun r => covers r id).map key

/-- nothing that lists servers says anything else about the server -/
structure SameCoverage (s s' : St F) (id : String) : Prop where
  tasks : coveredBy Task.id Task.covers s'.tasks id = coveredBy Task.id Task.covers s.tasks id
  pingTasks : coveredBy PingTask.id PingTask.covers s'.pingTasks id = coveredBy PingTask.id PingTask.covers s.pingTasks id
  alertRules : coveredBy AlertRule.id AlertRule.covers s'.alertRules id = coveredBy AlertRule.id AlertRule.covers s.alertRules id
  maintenances : coveredBy Maintenance.id Maintenance.covers s'.base.maintenances id =
    coveredBy Maintenance.id Maintenance.covers s.base.maintenances id
  serviceMonitors : coveredBy ServiceMonitor.id ServiceMonitor.lists s'.serviceMonitors id =
    coveredBy ServiceMonitor.id ServiceMonitor.lists s.serviceMonitors id
  incidents : coveredBy IncidentServers.id IncidentServers.lists s'.incidents id =
    coveredBy IncidentServers.id IncidentServers.lists s.incidents id
  page : selects s'.base id = selects s.base id

/-- a list of which nothing is left -/
def Emptied (ids : Option (List String)) (orphanIds : List String) : Prop :=
  ids.getD [] ≠ [] ∧ ∀ id ∈ ids.getD [], id ∈ orphanIds

/-! ## Shorter lists -/

theorem removeIds_eq_none {ids : Option (List String)} {orphanIds : List String} :
    removeIds ids orphanIds = none ↔ ∀ id ∈ ids.getD [], id ∉ orphanIds := by
  simp only [removeIds]
  constructor
  · intro h id hid
    split_ifs at h with hlen
    have hall := List.length_filter_eq_length_iff.1 hlen id hid
    simpa using hall
  · intro h
    rw [if_pos]
    rw [List.length_filter_eq_length_iff]
    intro id hid
    simpa using h id hid

theorem removeIds_eq_some {ids : Option (List String)} {orphanIds rest : List String} (h : removeIds ids orphanIds = some rest) :
    rest = (ids.getD []).filter fun id => !orphanIds.contains id := by
  simp only [removeIds] at h
  split_ifs at h
  exact (Option.some.inj h).symm

/-- what is left says the same of a server that stays -/
theorem contains_rest {ids : Option (List String)} {orphanIds rest : List String} (h : removeIds ids orphanIds = some rest)
    {id : String} (hid : id ∉ orphanIds) : rest.contains id = (ids.getD []).contains id := by
  rw [Bool.eq_iff_iff, List.contains_iff_mem, List.contains_iff_mem, removeIds_eq_some h, List.mem_filter]
  simp [hid]

theorem emptied_iff {ids : Option (List String)} {orphanIds : List String} :
    Emptied ids orphanIds ↔ removeIds ids orphanIds = some [] := by
  constructor
  · rintro ⟨hne, hall⟩
    cases hremove : removeIds ids orphanIds with
    | none =>
      obtain ⟨id, hid⟩ := List.exists_mem_of_ne_nil _ hne
      exact absurd (hall id hid) (removeIds_eq_none.1 hremove id hid)
    | some rest =>
      rw [removeIds_eq_some hremove]
      congr 1
      rw [List.filter_eq_nil_iff]
      intro id hid
      simpa using hall id hid
  · intro h
    have hrest := removeIds_eq_some h
    refine ⟨?_, ?_⟩
    · intro hnil
      have hnone : removeIds ids orphanIds = none := removeIds_eq_none.2 (by simp [hnil])
      rw [hnone] at h
      cases h
    · intro id hid
      have hout := List.filter_eq_nil_iff.1 hrest.symm id hid
      simpa using hout

/-- a list that was not empty is not left without a change -/
theorem nonempty_of_removed {ids : Option (List String)} {orphanIds rest : List String} (h : removeIds ids orphanIds = some rest) :
    ids.getD [] ≠ [] := by
  intro hnil
  have hnone : removeIds ids orphanIds = none := removeIds_eq_none.2 (by simp [hnil])
  rw [hnone] at h
  cases h

/-! ## Pruned tables -/

section Table

variable {ρ : Type} {key : ρ → String} {covers : ρ → String → Bool} {f : ρ → Option ρ} {id : String}

/-- a row that stays covers what it covered -/
def Faithful (key : ρ → String) (covers : ρ → String → Bool) (f : ρ → Option ρ) (id : String) : Prop :=
  ∀ r r', f r = some r' → key r' = key r ∧ covers r' id = covers r id

theorem coveredBy_cons (r : ρ) (rows : List ρ) :
    coveredBy key covers (r :: rows) id =
      if covers r id = true then key r :: coveredBy key covers rows id else coveredBy key covers rows id := by
  rw [coveredBy, List.filter_cons]
  split
  · rfl
  · rfl

/-- rows are only lost -/
theorem coveredBy_sublist (h : Faithful key covers f id) (rows : List ρ) :
    (coveredBy key covers (rows.filterMap f) id).Sublist (coveredBy key covers rows id) := by
  induction rows with
  | nil => exact List.Sublist.refl _
  | cons r rows ih =>
    rw [coveredBy_cons r rows]
    cases hf : f r with
    | none =>
      rw [List.filterMap_cons_none hf]
      split
      · exact ih.cons _
      · exact ih
    | some r' =>
      rw [List.filterMap_cons_some hf, coveredBy_cons, (h r r' hf).1, (h r r' hf).2]
      split
      · exact ih.cons_cons _
      · exact ih

/-- nothing is lost unless a row that covers the server is deleted -/
theorem coveredBy_eq_iff (h : Faithful key covers f id) (rows : List ρ) :
    coveredBy key covers (rows.filterMap f) id = coveredBy key covers rows id ↔
      ∀ r ∈ rows, covers r id = true → f r ≠ none := by
  induction rows with
  | nil => simp [coveredBy]
  | cons r rows ih =>
    rw [coveredBy_cons r rows, List.forall_mem_cons]
    cases hf : f r with
    | none =>
      rw [List.filterMap_cons_none hf]
      by_cases hc : covers r id = true
      · rw [if_pos hc]
        constructor
        · intro heq
          have hlen := (coveredBy_sublist h rows).length_le
          rw [heq, List.length_cons] at hlen
          omega
        · rintro ⟨hout, _⟩
          exact absurd rfl (hout hc)
      · rw [if_neg hc, ih]
        exact ⟨fun hrows => ⟨fun hcov => absurd hcov hc, hrows⟩, fun hrows => hrows.2⟩
    | some r' =>
      rw [List.filterMap_cons_some hf, coveredBy_cons, (h r r' hf).1, (h r r' hf).2]
      by_cases hc : covers r id = true
      · rw [if_pos hc, if_pos hc, List.cons.injEq, ih]
        simp
      · rw [if_neg hc, if_neg hc, ih]
        simp

end Table

section Rows

variable {ρ : Type} {serverIds : ρ → Option (List String)} {write : ρ → List String → Option ρ} {key : ρ → String}
  {covers : ρ → String → Bool} {orphanIds : List String} {id : String}

theorem pruneRow_faithful (h : ∀ r rest r', removeIds (serverIds r) orphanIds = some rest → write r rest = some r' →
    key r' = key r ∧ covers r' id = covers r id) : Faithful key covers (pruneRow serverIds write orphanIds) id := by
  intro r r' hr
  unfold pruneRow at hr
  cases hremove : removeIds (serverIds r) orphanIds with
  | none =>
    rw [hremove] at hr
    cases hr
    exact ⟨rfl, rfl⟩
  | some rest =>
    rw [hremove] at hr
    exact h r rest r' hremove hr

theorem pruneRow_eq_none {r : ρ} :
    pruneRow serverIds write orphanIds r = none ↔ ∃ rest, removeIds (serverIds r) orphanIds = some rest ∧ write r rest = none := by
  unfold pruneRow
  cases removeIds (serverIds r) orphanIds with
  | none => simp
  | some rest => simp

/-- where emptied rows are deleted and cover none that stays, nothing is lost -/
theorem coveredBy_pruneTable
    (hwrite : ∀ r rest r', removeIds (serverIds r) orphanIds = some rest → write r rest = some r' →
      key r' = key r ∧ covers r' id = covers r id)
    (hdelete : ∀ r rest, removeIds (serverIds r) orphanIds = some rest → write r rest = none → covers r id = false) (rows : List ρ) :
    coveredBy key covers (pruneTable serverIds write orphanIds rows) id = coveredBy key covers rows id := by
  refine (coveredBy_eq_iff (pruneRow_faithful hwrite) rows).2 ?_
  intro r _ hcov hnone
  obtain ⟨rest, hremove, hout⟩ := pruneRow_eq_none.1 hnone
  rw [hdelete r rest hremove hout] at hcov
  cases hcov

end Rows

/-- a list of which nothing is left has no server that stays -/
theorem contains_emptied {ids : Option (List String)} {orphanIds : List String} (h : removeIds ids orphanIds = some [])
    {id : String} (hid : id ∉ orphanIds) : (ids.getD []).contains id = false := by
  rw [← contains_rest h hid]
  rfl

/-! ## The tables -/

section Tables

variable {orphanIds : List String} {id : String} (hid : id ∉ orphanIds)

include hid

theorem tasks_kept (rows : List Task) :
    coveredBy Task.id Task.covers (pruneTasks orphanIds rows) id = coveredBy Task.id Task.covers rows id := by
  refine coveredBy_pruneTable ?_ ?_ rows
  · intro task rest task' hremove hwrite
    split_ifs at hwrite
    cases hwrite
    exact ⟨rfl, contains_rest hremove hid⟩
  · intro task rest hremove hwrite
    split_ifs at hwrite with hempty
    rw [hempty] at hremove
    exact contains_emptied hremove hid

/-- a list that got shorter was one -/
theorem PingTask.covers_eq {task : PingTask} {rest : List String} (h : removeIds task.serverIds orphanIds = some rest) :
    task.covers id = rest.contains id := by
  have hne := nonempty_of_removed h
  rw [contains_rest h hid]
  unfold PingTask.covers
  cases hids : task.serverIds with
  | none => simp [hids] at hne
  | some ids =>
    rw [hids] at hne
    simp only [Option.getD_some] at hne ⊢
    rw [List.isEmpty_eq_false_iff.2 hne, Bool.false_or]

theorem pingTasks_kept (rows : List PingTask) :
    coveredBy PingTask.id PingTask.covers (prunePingTasks orphanIds rows) id = coveredBy PingTask.id PingTask.covers rows id := by
  refine coveredBy_pruneTable ?_ ?_ rows
  · intro task rest task' hremove hwrite
    split_ifs at hwrite with hempty
    cases hwrite
    refine ⟨rfl, ?_⟩
    rw [PingTask.covers_eq hid hremove]
    simp [PingTask.covers, hempty]
  · intro task rest hremove hwrite
    split_ifs at hwrite with hempty
    rw [PingTask.covers_eq hid hremove, hempty]
    rfl

theorem maintenance_covers_eq {m : Maintenance} {rest : List String} (h : removeIds m.serverIds.join orphanIds = some rest) :
    m.covers id = rest.contains id := by
  have hne := nonempty_of_removed h
  rw [contains_rest h hid]
  unfold Maintenance.covers
  cases hids : m.serverIds with
  | none => simp [hids] at hne
  | some ids =>
    rw [hids] at hne
    simp only [Option.join_some] at hne ⊢
    rw [List.isEmpty_eq_false_iff.2 hne, Bool.false_or]

theorem maintenances_kept (rows : List Maintenance) :
    coveredBy Maintenance.id Maintenance.covers (pruneMaintenances orphanIds rows) id =
      coveredBy Maintenance.id Maintenance.covers rows id := by
  refine coveredBy_pruneTable ?_ ?_ rows
  · intro m rest m' hremove hwrite
    split_ifs at hwrite with hempty
    cases hwrite
    refine ⟨rfl, ?_⟩
    rw [maintenance_covers_eq hid hremove]
    simp [Maintenance.covers, hempty]
  · intro m rest hremove hwrite
    split_ifs at hwrite with hempty
    rw [maintenance_covers_eq hid hremove, hempty]
    rfl

theorem serviceMonitors_kept (rows : List ServiceMonitor) :
    coveredBy ServiceMonitor.id ServiceMonitor.lists (pruneServiceMonitors orphanIds rows) id =
      coveredBy ServiceMonitor.id ServiceMonitor.lists rows id := by
  refine coveredBy_pruneTable ?_ ?_ rows
  · intro monitor rest monitor' hremove hwrite
    cases hwrite
    refine ⟨rfl, ?_⟩
    rw [ServiceMonitor.lists, ServiceMonitor.lists, ← contains_rest hremove hid]
    by_cases hempty : rest = []
    · simp [hempty]
    · simp [hempty]
  · intro monitor rest _ hwrite
    cases hwrite

theorem incidents_kept (rows : List IncidentServers) :
    coveredBy IncidentServers.id IncidentServers.lists (pruneIncidents orphanIds rows) id =
      coveredBy IncidentServers.id IncidentServers.lists rows id := by
  refine coveredBy_pruneTable ?_ ?_ rows
  · intro incident rest incident' hremove hwrite
    cases hwrite
    refine ⟨rfl, ?_⟩
    rw [IncidentServers.lists, IncidentServers.lists, ← contains_rest hremove hid]
    rfl
  · intro incident rest _ hwrite
    cases hwrite

/-- an emptied rule covers a server that stays unless it includes -/
theorem AlertRule.covers_emptied {rule : AlertRule} (h : removeIds rule.serverIds.join orphanIds = some []) :
    rule.covers id = true ↔ rule.coverType ≠ "include" := by
  unfold AlertRule.covers
  rw [contains_emptied h hid]
  by_cases hinclude : rule.coverType = "include"
  · simp [hinclude]
  · simp [hinclude]

/-- rules are lost where they cover servers that they do not list -/
theorem alertRules_kept_iff (rows : List AlertRule) :
    coveredBy AlertRule.id AlertRule.covers (pruneAlertRules orphanIds rows) id = coveredBy AlertRule.id AlertRule.covers rows id ↔
      ∀ rule ∈ rows, rule.coverType ≠ "include" → ¬ Emptied rule.serverIds.join orphanIds := by
  have hfaithful : Faithful AlertRule.id AlertRule.covers (pruneRow (fun rule : AlertRule => rule.serverIds.join)
      (fun rule ids => if ids = [] then none else some { rule with serverIds := some (some ids) }) orphanIds) id := by
    refine pruneRow_faithful ?_
    intro rule rest rule' hremove hwrite
    split_ifs at hwrite
    cases hwrite
    refine ⟨rfl, ?_⟩
    simp only [AlertRule.covers, Option.join_some, Option.getD_some, contains_rest hremove hid]
  rw [pruneAlertRules, pruneTable, coveredBy_eq_iff hfaithful]
  constructor
  · intro h rule hrule hcover hemptied
    have hremove := emptied_iff.1 hemptied
    refine h rule hrule ((AlertRule.covers_emptied hid hremove).2 hcover) ?_
    exact pruneRow_eq_none.2 ⟨[], hremove, if_pos rfl⟩
  · intro h rule hrule hcov hnone
    obtain ⟨rest, hremove, hwrite⟩ := pruneRow_eq_none.1 hnone
    split_ifs at hwrite with hempty
    rw [hempty] at hremove
    exact h rule hrule ((AlertRule.covers_emptied hid hremove).1 hcov) (emptied_iff.2 hremove)

/-- an emptied page selects every server instead of its own -/
theorem page_kept_iff (s : State F) :
    selects { s with statusPage := s.statusPage.map (prunePage orphanIds) } id = selects s id ↔
      ∀ page, s.statusPage = some page → ¬ Emptied page.serverIds.toOption orphanIds := by
  cases hpage : s.statusPage with
  | none => simp [selects, hpage]
  | some page =>
    simp only [selects, hpage, Option.map_some, Option.any_some, Option.some.injEq, forall_eq', emptied_iff]
    cases hremove : removeIds page.serverIds.toOption orphanIds with
    | none => simp [prunePage, hremove]
    | some rest =>
      cases hids : page.serverIds with
      | error e => simp [hids, removeIds, Except.toOption] at hremove
      | ok ids =>
        have hids' : page.serverIds.toOption = some ids := by rw [hids]; rfl
        have hne := nonempty_of_removed hremove
        have hrest := contains_rest hremove hid
        rw [hids', Option.getD_some] at hne hrest
        rw [prunePage, hremove]
        simp only [List.isEmpty_eq_false_iff.2 hne, Bool.false_or, Option.some.injEq]
        rw [hrest]
        by_cases hempty : rest = []
        · subst hempty
          rw [← hrest]
          simp
        · simp [hempty]

end Tables

/-! ## A clean-up -/

theorem exists_other (orphanIds : List String) : ∃ id, id ∉ orphanIds := by
  have hlong : ∃ n, ∀ id ∈ orphanIds, id.length < n := by
    induction orphanIds with
    | nil => exact ⟨0, by simp⟩
    | cons id ids ih =>
      obtain ⟨n, hn⟩ := ih
      refine ⟨max n (id.length + 1), ?_⟩
      intro id' hid'
      rcases List.mem_cons.1 hid' with rfl | hid'
      · omega
      · have := hn id' hid'
        omega
  obtain ⟨n, hn⟩ := hlong
  refine ⟨String.ofList (List.replicate n 'a'), ?_⟩
  intro hmem
  have hlen := hn _ hmem
  simp at hlen

/-- **Coverage.** A clean-up changes nothing for the servers that stay, in any table that lists servers, exactly if no rule with
`exclude` or `all` and no page has a list of which every server is cleaned up. -/
theorem coverage_kept_iff {s s' : St F} {orphanIds : List String} (h : removeReferences s orphanIds = some s') :
    (∀ id, id ∉ orphanIds → SameCoverage s s' id) ↔
      (∀ rule ∈ s.alertRules, rule.coverType ≠ "include" → ¬ Emptied rule.serverIds.join orphanIds) ∧
        ∀ page, s.base.statusPage = some page → ¬ Emptied page.serverIds.toOption orphanIds := by
  obtain ⟨s₁, h₁, rfl⟩ := Option.map_eq_some_iff.1 h
  unfold removeServerReferences at h₁
  split_ifs at h₁
  cases h₁
  constructor
  · intro hsame
    obtain ⟨id, hid⟩ := exists_other orphanIds
    exact ⟨(alertRules_kept_iff hid s.alertRules).1 (hsame id hid).alertRules, (page_kept_iff hid s.base).1 (hsame id hid).page⟩
  · rintro ⟨hrules, hpage⟩ id hid
    exact
      { tasks := tasks_kept hid s.tasks
        pingTasks := pingTasks_kept hid s.pingTasks
        alertRules := (alertRules_kept_iff hid s.alertRules).2 hrules
        maintenances := maintenances_kept hid s.base.maintenances
        serviceMonitors := serviceMonitors_kept hid s.serviceMonitors
        incidents := incidents_kept hid s.incidents
        page := (page_kept_iff hid s.base).2 hpage }

def quiet : St ℕ :=
  { base :=
      { servers := [], servers_nodup := List.nodup_nil, groups := fun _ => none, statusPage := none, maintenances := [],
        incidents := [], incidentUpdates := [], unlockServices := [], unlockResults := [], snapshots := [], records := [],
        recordsHourly := [], uptimeDaily := [], probeInterval := none, probeTargets := [], probeConfigs := [], probeRecords := [],
        online := fun _ => false, latestReports := fun _ => none }
    tasks := [], taskResults := [], pingTasks := [], alertRules := [], alertStates := [], serviceMonitors := [], incidents := [],
    cleanup := .idle }

/-- a rule for all servers but one -/
def allButGhost : AlertRule := ⟨"rule", "exclude", some (some ["ghost"])⟩

/-- with the one server that it leaves out, the rule is lost for all others -/
theorem allButGhost_lost : ¬ ∀ id, id ∉ ["ghost"] →
    SameCoverage { quiet with alertRules := [allButGhost] } quiet id := by
  intro h
  have hrules := ((coverage_kept_iff rfl).1 h).1 allButGhost List.mem_cons_self (by decide)
  exact hrules (emptied_iff.2 (by decide))

end ServerBee.Orphans
