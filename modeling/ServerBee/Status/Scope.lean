/-
What the public status surface may show, and what two states have in common when they agree on it.

`visible` is read off the rows: the servers that are not hidden and that the page selects. `Agree` says nothing about any other server.
The scope that the code resolves has the ids of `visible`, whatever the order of its set.
-/
import ServerBee.Lib.Related
import ServerBee.Status.Model

namespace ServerBee.Status

variable {F : Type}

/-- what a page lets be seen -/
def StatusPage.shows (page : StatusPage F) (srv : Server) : Bool :=
  !srv.hidden && match page.serverIds with
    | .ok ids => ids.isEmpty || ids.contains srv.id
    | .error _ => false

def visible (s : State F) : List Server :=
  match s.statusPage with
  | some page => s.servers.filter page.shows
  | none => []

def publicIncidentIds (s : State F) : List String := (s.incidents.filter Incident.isPublic).map Incident.id

/-- the states have the same rows and reports of visible servers, and the same of what is public -/
structure Agree (s t : State F) : Prop where
  statusPage : s.statusPage = t.statusPage
  servers : visible s = visible t
  groups : ∀ srv ∈ visible s, ∀ group ∈ srv.groupId, s.groups group = t.groups group
  online : ∀ srv ∈ visible s, s.online srv.id = t.online srv.id
  latestReports : ∀ srv ∈ visible s, s.latestReports srv.id = t.latestReports srv.id
  records : ∀ srv ∈ visible s, rowsOf Record.serverId s.records srv.id = rowsOf Record.serverId t.records srv.id
  recordsHourly : ∀ srv ∈ visible s,
    rowsOf Record.serverId s.recordsHourly srv.id = rowsOf Record.serverId t.recordsHourly srv.id
  uptimeDaily : ∀ srv ∈ visible s,
    rowsOf UptimeDaily.serverId s.uptimeDaily srv.id = rowsOf UptimeDaily.serverId t.uptimeDaily srv.id
  unlockResults : ∀ srv ∈ visible s,
    rowsOf UnlockResult.serverId s.unlockResults srv.id = rowsOf UnlockResult.serverId t.unlockResults srv.id
  snapshots : ∀ srv ∈ visible s,
    rowsOf IpQualitySnapshot.serverId s.snapshots srv.id = rowsOf IpQualitySnapshot.serverId t.snapshots srv.id
  probeConfigs : ∀ srv ∈ visible s,
    rowsOf ProbeConfig.serverId s.probeConfigs srv.id = rowsOf ProbeConfig.serverId t.probeConfigs srv.id
  probeRecords : ∀ srv ∈ visible s,
    rowsOf ProbeRecord.serverId s.probeRecords srv.id = rowsOf ProbeRecord.serverId t.probeRecords srv.id
  probeInterval : s.probeInterval = t.probeInterval
  probeTargets : s.probeTargets = t.probeTargets
  incidents : s.incidents.filter Incident.isPublic = t.incidents.filter Incident.isPublic
  incidentUpdates : (s.incidentUpdates.filter fun u => (publicIncidentIds s).contains u.incidentId) =
    t.incidentUpdates.filter fun u => (publicIncidentIds t).contains u.incidentId
  maintenances : s.maintenances.filter Maintenance.isPublic = t.maintenances.filter Maintenance.isPublic
  unlockServices : s.unlockServices.filter UnlockService.enabled = t.unlockServices.filter UnlockService.enabled

theorem Agree.refl (s : State F) : Agree s s where
  statusPage := rfl
  servers := rfl
  groups := fun _ _ _ _ => rfl
  online := fun _ _ => rfl
  latestReports := fun _ _ => rfl
  records := fun _ _ => rfl
  recordsHourly := fun _ _ => rfl
  uptimeDaily := fun _ _ => rfl
  unlockResults := fun _ _ => rfl
  snapshots := fun _ _ => rfl
  probeConfigs := fun _ _ => rfl
  probeRecords := fun _ _ => rfl
  probeInterval := rfl
  probeTargets := rfl
  incidents := rfl
  incidentUpdates := rfl
  maintenances := rfl
  unlockServices := rfl

/-! ## Rows of visible servers -/

theorem mem_visible {s : State F} {srv : Server} :
    srv ∈ visible s ↔ srv ∈ s.servers ∧ ∃ page, s.statusPage = some page ∧ page.shows srv = true := by
  unfold visible
  cases s.statusPage with
  | none => simp
  | some page => simp [List.mem_filter]

theorem visible_mem {s : State F} {srv : Server} (h : srv ∈ visible s) : srv ∈ s.servers := (mem_visible.1 h).1

/-- rows with the id of a visible server are that server -/
theorem eq_of_id {s : State F} {srv srv' : Server} (h : srv ∈ s.servers) (h' : srv' ∈ s.servers) (heq : srv.id = srv'.id) :
    srv = srv' := List.inj_on_of_nodup_map s.servers_nodup h h' heq

def visibleIds (s : State F) : List String := (visible s).map Server.id

/-- the rows whose id is in the scope are the visible ones -/
theorem filter_scope (s : State F) : (s.servers.filter fun srv => decide (srv.id ∈ visibleIds s)) = visible s := by
  have hsub : ∀ srv ∈ s.servers, (srv.id ∈ visibleIds s ↔ srv ∈ visible s) := by
    intro srv hsrv
    constructor
    · intro h
      obtain ⟨srv', hsrv', hid⟩ := List.mem_map.1 h
      rwa [eq_of_id hsrv (visible_mem hsrv') hid.symm]
    · exact fun h => List.mem_map_of_mem h
  cases hpage : s.statusPage with
  | none =>
    have hnil : visible s = [] := by rw [visible, hpage]
    rw [hnil, List.filter_eq_nil_iff]
    intro srv _
    simp [visibleIds, hnil]
  | some page =>
    have hvisible : visible s = s.servers.filter page.shows := by rw [visible, hpage]
    rw [hvisible]
    apply List.filter_congr
    intro srv hsrv
    rw [Bool.eq_iff_iff, decide_eq_true_eq, hsub srv hsrv, hvisible, List.mem_filter]
    exact ⟨fun h => h.2, fun h => ⟨hsrv, h⟩⟩

/-- the row of a visible id -/
theorem find_visible {s : State F} {srv : Server} (h : srv ∈ visible s) :
    (s.servers.find? fun srv' => srv'.id == srv.id) = some srv := by
  cases hfind : s.servers.find? fun srv' => srv'.id == srv.id with
  | none =>
    have hne := List.find?_eq_none.1 hfind srv (visible_mem h)
    simp at hne
  | some srv' =>
    have hid : srv'.id = srv.id := by simpa using List.find?_some hfind
    rw [eq_of_id (List.mem_of_find?_eq_some hfind) (visible_mem h) hid]

theorem lookupLast_unique {ρ : Type} {p : ρ → Bool} {rows : List ρ} {r : ρ} (hr : r ∈ rows) (hp : p r = true)
    (hunique : ∀ r' ∈ rows, p r' = true → r' = r) : lookupLast p rows = some r := by
  unfold lookupLast
  cases hfind : rows.reverse.find? p with
  | none => exact absurd hp (by simpa using List.find?_eq_none.1 hfind r (List.mem_reverse.2 hr))
  | some r' =>
    have hmem : r' ∈ rows := List.mem_reverse.1 (List.mem_of_find?_eq_some hfind)
    rw [hunique r' hmem (List.find?_some hfind)]

theorem lookupLast_row {s : State F} {srv : Server} (h : srv ∈ visible s) :
    lookupLast (fun srv' => srv'.id == srv.id) s.servers = some srv := by
  refine lookupLast_unique (visible_mem h) (by simp) ?_
  intro srv' hsrv' hid
  exact eq_of_id hsrv' (visible_mem h) (by simpa using hid)

/-! ## The scope -/

structure SameScope (s : State F) (scope scope' : PublicScope F) : Prop where
  config : scope.config = scope'.config
  serverIds : scope.serverIds.Perm scope'.serverIds
  page : s.statusPage = some scope.config
  mem : ∀ id, id ∈ scope.serverIds ↔ id ∈ visibleIds s

theorem mem_liveIds {s : State F} {id : String} : id ∈ liveIds s ↔ ∃ srv ∈ s.servers, srv.hidden = false ∧ srv.id = id := by
  simp [liveIds, and_assoc]

/-- selected ids are live when they are those of visible servers -/
theorem mem_visibleIds {s : State F} {page : StatusPage F} {selected : List String} (hpage : s.statusPage = some page)
    (hsel : page.serverIds = .ok selected) (id : String) :
    id ∈ visibleIds s ↔ (selected = [] ∨ id ∈ selected) ∧ id ∈ liveIds s := by
  rw [mem_liveIds, visibleIds, List.mem_map]
  constructor
  · rintro ⟨srv, hsrv, rfl⟩
    obtain ⟨hmem, page', hpage', hshows⟩ := mem_visible.1 hsrv
    rw [hpage] at hpage'
    cases hpage'
    simp only [StatusPage.shows, hsel, Bool.and_eq_true, Bool.not_eq_true', Bool.or_eq_true, List.isEmpty_iff,
      List.contains_iff_mem] at hshows
    exact ⟨hshows.2, srv, hmem, hshows.1, rfl⟩
  · rintro ⟨hselected, srv, hmem, hlive, rfl⟩
    refine ⟨srv, mem_visible.2 ⟨hmem, page, hpage, ?_⟩, rfl⟩
    simpa [StatusPage.shows, hsel, hlive] using hselected

/-- an empty selection shows what is live -/
theorem visibleIds_eq_liveIds {s : State F} {page : StatusPage F} (hpage : s.statusPage = some page)
    (hsel : page.serverIds = .ok []) : visibleIds s = liveIds s := by
  have hshows : page.shows = fun srv => !srv.hidden := by
    funext srv
    simp [StatusPage.shows, hsel]
  rw [visibleIds, liveIds, visible, hpage]
  simp only [hshows]

theorem resolveScope_same {s t : State F} (agree : Agree s t) (hash hash' : Hash) :
    Lib.Related (SameScope s) (resolveScope s hash) (resolveScope t hash') := by
  have hids : visibleIds s = visibleIds t := by rw [visibleIds, agree.servers, visibleIds]
  unfold resolveScope loadConfig
  rw [← agree.statusPage]
  cases hpage : s.statusPage with
  | none => exact .error _
  | some page =>
    have hpage' : t.statusPage = some page := by rw [← agree.statusPage, hpage]
    cases hsel : page.serverIds with
    | error e =>
      simp only [bind, Except.bind, hsel]
      exact .error _
    | ok selected =>
      simp only [bind, Except.bind, hsel]
      by_cases hempty : selected = []
      · subst hempty
        have hlive := visibleIds_eq_liveIds hpage hsel
        have hlive' := visibleIds_eq_liveIds hpage' hsel
        refine .ok ⟨rfl, ?_, hpage, fun id => ?_⟩
        · change (hash.scope (liveIds s)).Perm (hash'.scope (liveIds t))
          rw [← hlive, ← hlive', ← hids]
          exact (hash.scope_perm _).trans (hash'.scope_perm _).symm
        · change id ∈ hash.scope (liveIds s) ↔ _
          rw [(hash.scope_perm _).mem_iff, List.mem_dedup, hlive]
      · have hsame : (selected.filter fun id => (liveIds s).contains id) = selected.filter fun id => (liveIds t).contains id := by
          apply List.filter_congr
          intro id hid
          have hs := mem_visibleIds hpage hsel id
          have ht := mem_visibleIds hpage' hsel id
          rw [← hids, hs] at ht
          rw [Bool.eq_iff_iff, List.contains_iff_mem, List.contains_iff_mem]
          simpa [hid] using ht
        rw [if_neg (by simpa using hempty), if_neg (by simpa using hempty), hsame]
        refine .ok ⟨rfl, List.Perm.refl _, hpage, fun id => ?_⟩
        rw [← hsame, mem_visibleIds hpage hsel id]
        simp [hempty]

theorem SameScope.contains_left {s : State F} {scope scope' : PublicScope F} (h : SameScope s scope scope') (id : String) :
    scope.contains id = decide (id ∈ visibleIds s) := by
  rw [Bool.eq_iff_iff, decide_eq_true_eq, ← h.mem]
  simp [PublicScope.contains]

theorem SameScope.contains_right {s : State F} {scope scope' : PublicScope F} (h : SameScope s scope scope') (id : String) :
    scope'.contains id = decide (id ∈ visibleIds s) := by
  rw [Bool.eq_iff_iff, decide_eq_true_eq, ← h.mem, h.serverIds.mem_iff]
  simp [PublicScope.contains]

/-! ## Gates -/

/-- behind the check of an id, only visible ids matter -/
theorem SameScope.gate {α : Type} {R : α → α → Prop} {s : State F} {scope scope' : PublicScope F} (h : SameScope s scope scope')
    {id : String} {x y : Except AppError α} (hxy : ∀ srv ∈ visible s, srv.id = id → Lib.Related R x y) :
    Lib.Related R (gateScopeId scope id >>= fun _ => x) (gateScopeId scope' id >>= fun _ => y) := by
  rw [gateScopeId, gateScopeId, h.contains_left, h.contains_right]
  by_cases hid : id ∈ visibleIds s
  · obtain ⟨srv, hsrv, rfl⟩ := List.mem_map.1 hid
    simp only [hid, decide_true, Bool.not_true, Bool.false_eq_true, if_false]
    exact hxy srv hsrv rfl
  · simp only [hid, decide_false, Bool.not_false, if_true]
    exact .error _

section Gates

variable {s t : State F} (agree : Agree s t) (hash hash' : Hash)

include agree

theorem Agree.enabledScope :
    Lib.Related (fun scope scope' => SameScope s scope scope' ∧ scope.config.enabled = true) (resolveEnabledScope hash s)
      (resolveEnabledScope hash' t) := by
  refine (resolveScope_same agree hash hash').bind fun scope scope' h => ?_
  rw [← h.config]
  cases henabled : scope.config.enabled with
  | false => exact .error _
  | true => exact .ok ⟨h, henabled⟩

/-- a page behind its toggle -/
theorem Agree.subpage {α : Type} {R : α → α → Prop} (toggle : StatusPage F → Bool) {f g : PublicScope F → Except AppError α}
    (hfg : ∀ scope scope', SameScope s scope scope' → scope.config.enabled = true → Lib.Related R (f scope) (g scope')) :
    Lib.Related R (resolveEnabledScope hash s >>= fun scope => gateSubpage scope toggle >>= fun _ => f scope)
      (resolveEnabledScope hash' t >>= fun scope => gateSubpage scope toggle >>= fun _ => g scope) := by
  refine (agree.enabledScope hash hash').bind fun scope scope' h => ?_
  rw [gateSubpage, gateSubpage, ← h.1.config]
  exact (hfg scope scope' h.1 h.2).andThen

end Gates

/-! ## Windows -/

/-- a current window among those that `p` selects covers the server -/
def coveredBy (p : Maintenance → Bool) (s : State F) (id : String) (now : ℤ) : Bool :=
  s.maintenances.any fun m => p m && m.isCurrent now && m.covers id

theorem isInMaintenance_eq (s : State F) (id : String) (now : ℤ) :
    isInMaintenance s id now = (coveredBy (fun m => m.isPublic) s id now || coveredBy (fun m => !m.isPublic) s id now) := by
  rw [Bool.eq_iff_iff]
  simp only [isInMaintenance, coveredBy, Bool.or_eq_true, List.any_eq_true, List.mem_filter, Bool.and_eq_true]
  constructor
  · rintro ⟨m, ⟨hm, hcur⟩, hcov⟩
    cases hpub : m.isPublic with
    | true => exact .inl ⟨m, hm, ⟨hpub, hcur⟩, hcov⟩
    | false => exact .inr ⟨m, hm, ⟨by simp [hpub], hcur⟩, hcov⟩
  · rintro (⟨m, hm, ⟨_, hcur⟩, hcov⟩ | ⟨m, hm, ⟨_, hcur⟩, hcov⟩)
    · exact ⟨m, ⟨hm, hcur⟩, hcov⟩
    · exact ⟨m, ⟨hm, hcur⟩, hcov⟩

theorem Agree.openlyCovered {s t : State F} (agree : Agree s t) (id : String) (now : ℤ) :
    coveredBy (fun m => m.isPublic) s id now = coveredBy (fun m => m.isPublic) t id now := by
  have h : ∀ u : State F, coveredBy (fun m => m.isPublic) u id now =
      (u.maintenances.filter Maintenance.isPublic).any fun m => m.isCurrent now && m.covers id := by
    intro u
    rw [List.any_filter]
    simp only [coveredBy, Bool.and_assoc]
  rw [h s, h t, agree.maintenances]

/-- the flag of a server is the same when it is openly covered, or secretly in both states or in none -/
theorem Agree.inMaintenance_iff {s t : State F} (agree : Agree s t) (id : String) (now : ℤ) :
    isInMaintenance s id now = isInMaintenance t id now ↔
      coveredBy (fun m => m.isPublic) s id now = true ∨
        coveredBy (fun m => !m.isPublic) s id now = coveredBy (fun m => !m.isPublic) t id now := by
  rw [isInMaintenance_eq s, isInMaintenance_eq t, ← agree.openlyCovered]
  cases coveredBy (fun m => m.isPublic) s id now with
  | true => simp
  | false => simp

end ServerBee.Status
