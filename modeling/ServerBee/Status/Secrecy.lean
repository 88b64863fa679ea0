/-
The public status surface tells nothing of a server that it does not show, except through windows of maintenance.

Two states that agree on what is public answer every request alike, up to the order of servers and of targets, as long as no window that
is not public makes a difference to a visible server. `in_maintenance` is read from all windows (`is_in_maintenance`), also from those that
`list_maintenances` leaves out; the main theorem says exactly when that is seen.
-/
import Mathlib.Data.Rat.Defs
import ServerBee.Status.Scope

namespace ServerBee.Status

variable {F : Type}

/-! ## Answers up to order -/

/-- overviews that differ in the order of their targets only -/
def ServerOverview.Same (o o' : ServerOverview F) : Prop := o.targets.Perm o'.targets ∧ o' = { o with targets := o'.targets }

inductive Same : Response F → Response F → Prop
  | refl (r : Response F) : Same r r
  | servers {l l' : List (PublicServerSummary F)} (h : l.Perm l') : Same (.servers l) (.servers l')
  | network {l l' : List (ServerOverview F)} (h : List.Forall₂ ServerOverview.Same l l') : Same (.network l) (.network l')
  | ipQuality {l l' : List PublicIpQualityEntry} (services : List PublicIpQualityServiceMeta) (h : l.Perm l') :
    Same (.ipQuality l services) (.ipQuality l' services)

theorem Same.servers_perm {l l' : List (PublicServerSummary F)} (h : Same (.servers l) (.servers l')) : l.Perm l' := by
  cases h with
  | refl => exact List.Perm.refl _
  | servers h => exact h

section Pair

variable {s t : State F} (agree : Agree s t)

include agree

/-! ## Single servers -/

theorem Agree.dailyFilled (env : Env F) {srv : Server} (h : srv ∈ visible s) (days : ℕ) :
    getDailyFilled env s srv.id days = getDailyFilled env t srv.id days := by
  simp only [getDailyFilled, agree.uptimeDaily srv h]

theorem Agree.history {srv : Server} (h : srv ∈ visible s) (since till : ℤ) (interval : String) :
    queryHistory s srv.id since till interval = queryHistory t srv.id since till interval := by
  cases hhourly : readsHourly interval since till with
  | true => simp only [queryHistory, hhourly, if_true, agree.recordsHourly srv h]
  | false => simp only [queryHistory, hhourly, Bool.false_eq_true, if_false, agree.records srv h]

theorem Agree.groupName {srv : Server} (h : srv ∈ visible s) : srv.groupId.bind s.groups = srv.groupId.bind t.groups := by
  cases hgroup : srv.groupId with
  | none => rfl
  | some group => exact agree.groups srv h group hgroup

theorem Agree.serverTargets (env : Env F) {srv : Server} (h : srv ∈ visible s) :
    getServerTargets env s srv.id = getServerTargets env t srv.id := by
  simp only [getServerTargets, agree.probeConfigs srv h, agree.probeTargets]

variable [Real64 F]

theorem Agree.summary (env : Env F) {srv : Server} (h : srv ∈ visible s)
    (hwindow : isInMaintenance s srv.id env.now = isInMaintenance t srv.id env.now) : summaryOf env s srv = summaryOf env t srv := by
  simp only [summaryOf, agree.online srv h, agree.latestReports srv h, agree.groupName h, agree.dailyFilled env h, hwindow]

theorem Agree.anomalies (env : Env F) {srv : Server} (h : srv ∈ visible s) (since till : ℤ) :
    getAnomalies env s srv.id since till = getAnomalies env t srv.id since till := by
  simp only [getAnomalies, agree.serverTargets env h, agree.probeRecords srv h]

theorem Agree.serverSummary (env : Env F) {srv : Server} (h : srv ∈ visible s) :
    getServerSummary env s srv.id = getServerSummary env t srv.id := by
  have h' : srv ∈ visible t := by rwa [← agree.servers]
  simp only [getServerSummary, find_visible h, find_visible h', agree.online srv h, agree.serverTargets env h,
    fetchLatestRecordsForServer, countAnomalies, agree.probeRecords srv h]

end Pair

/-! ## Bulk reads -/

/-- the latest records of all servers, taken apart, are those of each server -/
theorem rowsOf_fetchLatest (s : State F) (id : String) :
    rowsOf ProbeRecord.serverId (fetchLatestRecordsAllServers s) id = fetchLatestRecordsForServer s id := by
  simp only [fetchLatestRecordsAllServers, fetchLatestRecordsForServer, rowsOf, List.filter_filter]
  apply List.filter_congr
  intro r _
  rw [Bool.and_comm]
  by_cases hid : r.serverId = id
  · subst hid
    congr 1
    -- rows of other servers never stand before a row
    rw [Bool.eq_iff_iff, isLatest, isLatest, List.all_eq_true, List.all_eq_true]
    constructor
    · intro h r' hr'
      exact h r' (List.mem_filter.1 hr').1
    · intro h r' hr'
      by_cases hserver : r'.serverId = r.serverId
      · exact h r' (List.mem_filter.2 ⟨hr', by simpa using hserver⟩)
      · simp [hserver]
  · rw [beq_false_of_ne hid, Bool.and_false, Bool.and_false]

theorem lastProbeAt_perm {records records' : List (Option (ProbeRecord F))} (h : records.Perm records') :
    lastProbeAt records = lastProbeAt records' := Lib.foldl_later_perm (h.filterMap _) none

/-- the rows that `list_servers` takes for the ids of a scope -/
def listed (s : State F) (serverIds : List String) : List Server :=
  (Lib.drain (fun _ srv => srv) none (fun id => lookupLast (fun srv => srv.id == id) (visible s)) serverIds).filterMap id

theorem mem_listed {s : State F} {serverIds : List String} (h : ∀ id, id ∈ serverIds ↔ id ∈ visibleIds s) {srv : Server} :
    srv ∈ listed s serverIds ↔ srv ∈ visible s := by
  rw [listed, List.mem_filterMap]
  constructor
  · rintro ⟨_, htaken, rfl⟩
    obtain ⟨id, _, hfound | hfound⟩ := Lib.mem_drain _ _ htaken
    · exact List.mem_reverse.1 (List.mem_of_find?_eq_some hfound.symm)
    · cases hfound
  · intro hsrv
    have hid : srv.id ∈ serverIds := (h srv.id).2 (List.mem_map_of_mem hsrv)
    have hrow : lookupLast (fun srv' => srv'.id == srv.id) (visible s) = some srv := by
      refine lookupLast_unique hsrv (by simp) ?_
      intro srv' hsrv' heq
      exact eq_of_id (visible_mem hsrv') (visible_mem hsrv) (by simpa using heq)
    refine ⟨some srv, ?_, rfl⟩
    rw [← hrow]
    exact Lib.taken_mem_drain (fun _ srv => srv) none hid

theorem rowsOf_filter {ρ : Type} (key : ρ → String) (rows : List ρ) {ids : List String} {id : String} (hid : id ∈ ids) :
    rowsOf key (rows.filter fun r => ids.contains (key r)) id = rowsOf key rows id := by
  rw [rowsOf, rowsOf, List.filter_filter]
  apply List.filter_congr
  intro r _
  by_cases heq : key r = id
  · simp [heq, hid]
  · rw [beq_false_of_ne heq, Bool.false_and]

theorem lookupLast_eq {ρ : Type} (key : ρ → String) (rows : List ρ) (id : String) :
    lookupLast (fun r => key r == id) rows = (rowsOf key rows id).getLast? := by
  rw [lookupLast, rowsOf, ← List.head?_filter, List.filter_reverse, List.head?_reverse]

section Plain

variable {s t : State F} (agree : Agree s t) (hash hash' : Hash) (env : Env F)

include agree

theorem Agree.serverMetrics (id : String) (since till : ℤ) (interval : String) :
    Lib.Related Eq (getServerMetrics hash s id since till interval) (getServerMetrics hash' t id since till interval) := by
  refine (resolveScope_same agree hash hash').bind fun scope scope' h => h.gate ?_
  rintro srv hsrv rfl
  refine (Lib.Related.refl (fun _ => rfl) (clampPublicMetricsFrom since till interval)).bind ?_
  rintro since' _ rfl
  rw [agree.history hsrv]
  exact .ok rfl

theorem Agree.serverUptimeDaily (id : String) :
    Lib.Related Eq (getServerUptimeDaily hash env s id) (getServerUptimeDaily hash' env t id) := by
  refine (resolveScope_same agree hash hash').bind fun scope scope' h => h.gate ?_
  rintro srv hsrv rfl
  rw [agree.dailyFilled env hsrv]
  exact .ok rfl

theorem Agree.summaries {serverIds serverIds' : List String} (h : serverIds.Perm serverIds')
    (hids : ∀ id ∈ serverIds, id ∈ visibleIds s) : (getSummaries s serverIds).Perm (getSummaries t serverIds') := by
  refine List.Perm.trans ?_ (Lib.drain_perm _ _ h)
  refine List.Perm.of_eq (Lib.drain_congr _ _ ?_)
  intro id hid
  obtain ⟨srv, hsrv, rfl⟩ := List.mem_map.1 (hids id hid)
  simp only [lookupLast_eq, rowsOf_filter UnlockResult.serverId s.unlockResults hid,
    rowsOf_filter UnlockResult.serverId t.unlockResults (h.mem_iff.1 hid),
    rowsOf_filter IpQualitySnapshot.serverId s.snapshots hid,
    rowsOf_filter IpQualitySnapshot.serverId t.snapshots (h.mem_iff.1 hid), agree.unlockResults srv hsrv, agree.snapshots srv hsrv]

theorem Agree.ipQualityOverview :
    Lib.Related (fun o o' => o.1.Perm o'.1 ∧ o.2 = o'.2) (ipQualityOverview hash s) (ipQualityOverview hash' t) := by
  refine (resolveScope_same agree hash hash').bind fun scope scope' h => ?_
  refine .ok ⟨(agree.summaries h.serverIds fun id hid => (h.mem id).1 hid).map _, ?_⟩
  simp only [agree.unlockServices]

theorem Agree.incidents_same : listIncidents env s = listIncidents env t := by
  have hupdates : ∀ u : State F,
      (u.incidentUpdates.filter fun up => ((orderByDesc Incident.createdAt (u.incidents.filter Incident.isPublic)).map
        Incident.id).contains up.incidentId) = u.incidentUpdates.filter fun up => (publicIncidentIds u).contains up.incidentId := by
    intro u
    apply List.filter_congr
    intro up _
    have hperm := (List.mergeSort_perm (u.incidents.filter Incident.isPublic) fun r r' =>
      decide (Incident.createdAt r' ≤ Incident.createdAt r)).map Incident.id
    rw [Bool.eq_iff_iff, List.contains_iff_mem, List.contains_iff_mem]
    exact hperm.mem_iff
  simp only [listIncidents]
  rw [hupdates s, hupdates t, agree.incidentUpdates, agree.incidents]

theorem Agree.maintenances_same : listMaintenances env s = listMaintenances env t := by
  have hrows : ∀ u : State F, (u.maintenances.filter fun m => m.isPublic && m.active && decide (env.now ≤ m.endAt)) =
      (u.maintenances.filter Maintenance.isPublic).filter fun m => m.active && decide (env.now ≤ m.endAt) := by
    intro u
    rw [List.filter_filter]
    apply List.filter_congr
    intro m _
    rw [Bool.and_assoc, Bool.and_comm]
  simp only [listMaintenances, hrows s, hrows t, agree.maintenances]

end Plain

variable [Real64 F]

theorem lookup_querySparklines (env : Env F) (s : State F) {serverIds : List String} (hnodup : serverIds.Nodup) (bucketSeconds : ℤ)
    {id : String} (hid : id ∈ serverIds) :
    lookupLast (fun entry => entry.1 == id) (querySparklines env s serverIds bucketSeconds) =
      some (id, sparklineBundle env (max bucketSeconds 1)
        (bucketed (max bucketSeconds 1) (rowsOf ProbeRecord.serverId s.probeRecords id))) := by
  rw [querySparklines, Lib.drain_of_nodup _ _ hnodup]
  apply lookupLast_unique
  · exact List.mem_map.2 ⟨id, hid, rfl⟩
  · simp
  · intro entry hentry heq
    obtain ⟨id', _, rfl⟩ := List.mem_map.1 hentry
    have heq' : id' = id := by simpa using heq
    rw [heq']

theorem Agree.overview {s t : State F} (agree : Agree s t) (hash hash' : Hash) (env : Env F) (bucketSeconds : ℤ) {srv : Server}
    (h : srv ∈ visible s) :
    (overviewOf hash env s (querySparklines env s (s.servers.map Server.id) bucketSeconds) srv.id).Same
      (overviewOf hash' env t (querySparklines env t (t.servers.map Server.id) bucketSeconds) srv.id) := by
  have h' : srv ∈ visible t := by rwa [← agree.servers]
  have hline := lookup_querySparklines env s s.servers_nodup bucketSeconds (List.mem_map_of_mem (visible_mem h))
  have hline' := lookup_querySparklines env t t.servers_nodup bucketSeconds (List.mem_map_of_mem (visible_mem h'))
  have htargets : ∀ ids, (hash.targets srv.id ids).Perm (hash'.targets srv.id ids) := fun ids =>
    (hash.targets_perm srv.id ids).trans (hash'.targets_perm srv.id ids).symm
  unfold ServerOverview.Same overviewOf
  simp only [hline, hline', lookupLast_row h, lookupLast_row h', rowsOf_fetchLatest, fetchLatestRecordsForServer, countAnomalies,
    targetMap, agree.online srv h, agree.probeConfigs srv h, agree.probeRecords srv h, agree.probeTargets]
  refine ⟨(htargets _).map _, ?_⟩
  rw [lastProbeAt_perm ((htargets _).map _)]

/-! ## Requests -/

/-- the answer to `list_servers` lists the rows of the scope -/
theorem listServers_eq (hash : Hash) (env : Env F) (s : State F) :
    listServers hash env s = resolveScope s hash >>= fun scope => .ok ((listed s scope.serverIds).map (summaryOf env s)) := by
  unfold listServers
  cases hscope : resolveScope s hash with
  | error e => rfl
  | ok scope =>
    have h := (resolveScope_same (Agree.refl s) hash hash)
    rw [hscope, Lib.related_ok] at h
    have hrows : (s.servers.filter fun srv => scope.contains srv.id) = visible s := by simp only [h.contains_left, filter_scope]
    simp only [bind, Except.bind, hrows]
    rfl

/-- of the overviews of all servers those of visible servers remain -/
theorem filter_overviews (hash : Hash) (env : Env F) (s : State F) {scope : PublicScope F}
    (h : ∀ id, scope.contains id = decide (id ∈ visibleIds s)) (sparklines : List (String × SparklineBundle F)) :
    (((s.servers.map Server.id).map fun id => overviewOf hash env s sparklines id).filter fun o => scope.contains o.serverId) =
      (visible s).map fun srv => overviewOf hash env s sparklines srv.id := by
  rw [List.map_map, List.filter_map]
  have hkeep : ((fun o : ServerOverview F => scope.contains o.serverId) ∘
      ((fun id => overviewOf hash env s sparklines id) ∘ Server.id)) = fun srv => decide (srv.id ∈ visibleIds s) := by
    funext srv
    exact h srv.id
  rw [hkeep, filter_scope]
  rfl

section Requests

variable {s t : State F} (agree : Agree s t) (hash hash' : Hash) (env : Env F)

include agree

theorem Agree.listServers (hwindow : ∀ srv ∈ visible s, isInMaintenance s srv.id env.now = isInMaintenance t srv.id env.now) :
    Lib.Related List.Perm (listServers hash env s) (listServers hash' env t) := by
  rw [listServers_eq, listServers_eq]
  refine (resolveScope_same agree hash hash').bind fun scope scope' h => ?_
  have hperm : (listed s scope.serverIds).Perm (listed t scope'.serverIds) := by
    rw [listed, listed, ← agree.servers]
    exact (Lib.drain_perm _ _ h.serverIds).filterMap _
  have hsummary : (listed t scope'.serverIds).map (summaryOf env s) = (listed t scope'.serverIds).map (summaryOf env t) := by
    apply List.map_congr_left
    intro srv hsrv
    have hvisible := (mem_listed h.mem).1 (hperm.mem_iff.2 hsrv)
    exact agree.summary env hvisible (hwindow srv hvisible)
  rw [← hsummary]
  exact .ok (hperm.map _)

theorem Agree.serverDetail (hwindow : ∀ srv ∈ visible s, isInMaintenance s srv.id env.now = isInMaintenance t srv.id env.now)
    (id : String) : Lib.Related Eq (getServerDetail hash env s id) (getServerDetail hash' env t id) := by
  refine (resolveScope_same agree hash hash').bind fun scope scope' h => h.gate ?_
  rintro srv hsrv rfl
  have hsrv' : srv ∈ visible t := by rwa [← agree.servers]
  rw [find_visible hsrv, find_visible hsrv']
  simp only [agree.summary env hsrv (hwindow srv hsrv), agree.latestReports srv hsrv]
  exact .ok rfl

theorem Agree.networkOverview :
    Lib.Related (List.Forall₂ ServerOverview.Same) (networkOverview hash env s) (networkOverview hash' env t) := by
  refine (resolveScope_same agree hash hash').bind fun scope scope' h => ?_
  have hids : visibleIds s = visibleIds t := by rw [visibleIds, agree.servers, visibleIds]
  have hcontains' : ∀ id, scope'.contains id = decide (id ∈ visibleIds t) := by simpa only [hids] using h.contains_right
  have hsetting : getSetting t = getSetting s := by rw [getSetting, getSetting, agree.probeInterval]
  unfold getOverview
  rw [hsetting]
  cases getSetting s with
  | error e => exact .error e
  | ok interval =>
    simp only [bind, Except.bind, pure, Except.pure, filter_overviews hash env s h.contains_left,
      filter_overviews hash' env t hcontains', ← agree.servers]
    refine .ok ?_
    rw [List.forall₂_map_left_iff, List.forall₂_map_right_iff, List.forall₂_same]
    intro srv hsrv
    exact agree.overview hash hash' env _ hsrv

theorem Agree.networkServerDetail (id : String) :
    Lib.Related Eq (networkServerDetail hash env s id) (networkServerDetail hash' env t id) := by
  refine (resolveScope_same agree hash hash').bind fun scope scope' h => h.gate ?_
  rintro srv hsrv rfl
  rw [agree.serverSummary env hsrv, agree.anomalies env hsrv]
  exact Lib.Related.refl (fun _ => rfl) _

/-- where the flags of visible servers are the same, so is every answer -/
theorem Agree.answer_same
    (hwindow : ∀ page, s.statusPage = some page → page.enabled = true →
      ∀ srv ∈ visible s, isInMaintenance s srv.id env.now = isInMaintenance t srv.id env.now) (request : Request) :
    Lib.Related Same (answer hash env s request) (answer hash' env t request) := by
  cases request with
  | config =>
    have hpage : loadConfig t = loadConfig s := by rw [loadConfig, loadConfig, agree.statusPage]
    simp only [answer, hpage]
    exact Lib.Related.refl Same.refl _
  | servers =>
    refine (agree.enabledScope hash hash').bind fun scope scope' h => ?_
    refine (agree.listServers hash hash' env (hwindow _ h.1.page h.2)).bind fun l l' hperm => ?_
    exact .ok (.servers hperm)
  | server id =>
    refine agree.subpage hash hash' _ fun scope scope' h henabled => h.gate fun _ _ _ => ?_
    refine (agree.serverDetail hash hash' env (hwindow _ h.page henabled) id).bind ?_
    rintro detail _ rfl
    exact .ok (.refl _)
  | metrics id since till interval =>
    refine agree.subpage hash hash' _ fun scope scope' h _ => h.gate fun _ _ _ => ?_
    refine (agree.serverMetrics hash hash' id since till interval).bind ?_
    rintro points _ rfl
    exact .ok (.refl _)
  | uptimeDaily id =>
    refine (agree.enabledScope hash hash').bind fun scope scope' h => h.1.gate fun _ _ _ => ?_
    refine (agree.serverUptimeDaily hash hash' env id).bind ?_
    rintro entries _ rfl
    exact .ok (.refl _)
  | network =>
    refine agree.subpage hash hash' _ fun scope scope' _ _ => ?_
    refine (agree.networkOverview hash hash' env).bind fun l l' hsame => ?_
    exact .ok (.network hsame)
  | networkServer id =>
    refine agree.subpage hash hash' _ fun scope scope' h _ => h.gate fun _ _ _ => ?_
    refine (agree.networkServerDetail hash hash' env id).bind ?_
    rintro detail _ rfl
    exact .ok (.refl _)
  | ipQuality =>
    refine agree.subpage hash hash' _ fun scope scope' _ _ => ?_
    refine (agree.ipQualityOverview hash hash').bind ?_
    rintro ⟨entries, services⟩ ⟨entries', _⟩ ⟨hperm, rfl⟩
    exact .ok (.ipQuality services hperm)
  | incidents =>
    refine agree.subpage hash hash' _ fun scope scope' _ _ => ?_
    rw [agree.incidents_same env]
    exact .ok (.refl _)
  | maintenances =>
    refine agree.subpage hash hash' _ fun scope scope' _ _ => ?_
    rw [agree.maintenances_same env]
    exact .ok (.refl _)

end Requests

/-- an enabled page that shows a server lists those that it shows -/
theorem answer_servers (hash : Hash) (env : Env F) {s : State F} {page : StatusPage F} (hpage : s.statusPage = some page)
    (henabled : page.enabled = true) {srv : Server} (hsrv : srv ∈ visible s) :
    ∃ rows : List Server, answer hash env s .servers = .ok (.servers (rows.map (summaryOf env s))) ∧
      ∀ srv', srv' ∈ rows ↔ srv' ∈ visible s := by
  have hrefl := resolveScope_same (Agree.refl s) hash hash
  cases hscope : resolveScope s hash with
  | error e =>
    obtain ⟨_, page', hpage', hshows⟩ := mem_visible.1 hsrv
    rw [hpage] at hpage'
    cases hpage'
    cases hids : page.serverIds with
    | error _ => simp [StatusPage.shows, hids] at hshows
    | ok selected =>
      simp only [resolveScope, loadConfig, hpage, bind, Except.bind, hids] at hscope
      split at hscope <;> cases hscope
  | ok scope =>
    rw [hscope, Lib.related_ok] at hrefl
    have hconfig : scope.config = page := Option.some.inj (hrefl.page.symm.trans hpage)
    refine ⟨listed s scope.serverIds, ?_, fun srv' => mem_listed hrefl.mem⟩
    simp only [answer, resolveEnabledScope, listServers_eq, hscope, bind, Except.bind, hconfig, henabled, Bool.not_true,
      Bool.false_eq_true, if_false]
    rfl

/-- the list of servers tells the flag of every server in it -/
theorem Agree.flag_seen {s t : State F} (agree : Agree s t) (hash hash' : Hash) (env : Env F) {page : StatusPage F}
    (hpage : s.statusPage = some page) (henabled : page.enabled = true) {srv : Server} (hsrv : srv ∈ visible s)
    (h : Lib.Related Same (answer hash env s .servers) (answer hash' env t .servers)) :
    isInMaintenance s srv.id env.now = isInMaintenance t srv.id env.now := by
  have hpage' : t.statusPage = some page := by rw [← agree.statusPage, hpage]
  have hsrv' : srv ∈ visible t := by rwa [← agree.servers]
  obtain ⟨rows, hrows, hmem⟩ := answer_servers hash env hpage henabled hsrv
  obtain ⟨rows', hrows', hmem'⟩ := answer_servers hash' env hpage' henabled hsrv'
  rw [hrows, hrows', Lib.related_ok] at h
  have hsummary := h.servers_perm.mem_iff.1 (List.mem_map_of_mem ((hmem srv).2 hsrv))
  obtain ⟨srv', hin, heq⟩ := List.mem_map.1 hsummary
  have hid : srv'.id = srv.id := congrArg PublicServerSummary.id heq
  have hsame : srv' = srv := eq_of_id (visible_mem ((hmem' srv').1 hin)) (visible_mem hsrv') hid
  rw [hsame] at heq
  exact (congrArg PublicServerSummary.inMaintenance heq).symm

/-- **Secrecy.** Two states that agree on what is public answer every request alike, in whatever order their sets give servers and
targets, exactly if, while the page is enabled, every visible server is in a current public window or the windows that are not
public make the same difference to it in both states. -/
theorem answers_same_iff {s t : State F} (agree : Agree s t) (env : Env F) :
    (∀ hash hash' request, Lib.Related Same (answer hash env s request) (answer hash' env t request)) ↔
      ∀ page, s.statusPage = some page → page.enabled = true → ∀ srv ∈ visible s,
        coveredBy (fun m => m.isPublic) s srv.id env.now = true ∨
          coveredBy (fun m => !m.isPublic) s srv.id env.now = coveredBy (fun m => !m.isPublic) t srv.id env.now := by
  constructor
  · intro h page hpage henabled srv hsrv
    rw [← agree.inMaintenance_iff]
    exact agree.flag_seen inOrder inOrder env hpage henabled hsrv (h inOrder inOrder .servers)
  · intro h hash hash' request
    refine agree.answer_same hash hash' env (fun page hpage henabled srv hsrv => ?_) request
    rw [agree.inMaintenance_iff]
    exact h page hpage henabled srv hsrv

/-! ## A window that is not public -/

/-- fractions stand for `f64` where nothing is rounded -/
instance : Real64 ℚ where
  sub := Rat.sub
  mul := Rat.mul
  div := Rat.div
  ofInt := Rat.ofInt
  ofDecimal := fun n k => mkRat n (Nat.pow 10 k)
  epsilon := mkRat 1 4503599627370496
  abs := fun x => if x.blt (Rat.ofInt 0) then x.neg else x
  lt := Rat.blt
  le := fun x y => !y.blt x
  avg := fun xs => (xs.foldl Rat.add (Rat.ofInt 0)).div (Rat.ofInt xs.length)

def named (id : String) (hidden : Bool) : Server :=
  { id := id, name := id, groupId := none, region := none, countryCode := none, publicRemark := none, os := none, hidden := hidden,
    memTotal := none, swapTotal := none, diskTotal := none, cpuName := none, cpuCores := none, cpuArch := none,
    kernelVersion := none, agentVersion := none }

theorem named_nodup : ([named "web" false, named "vault" true].map Server.id).Nodup := by decide

def openPage : StatusPage ℚ :=
  { title := "Status", description := none, serverIds := .ok [], enabled := true, defaultLayout := "list", showServerDetail := true,
    showNetwork := true, showIpQuality := true, showIncidents := true, showMaintenance := true, uptimeYellowThreshold := 99,
    uptimeRedThreshold := 95 }

/-- one server that is shown and one that is hidden, with some windows -/
def twoServers (maintenances : List Maintenance) : State ℚ :=
  { servers := [named "web" false, named "vault" true], servers_nodup := named_nodup, groups := fun _ => none,
    statusPage := some openPage, maintenances := maintenances, incidents := [], incidentUpdates := [], unlockServices := [],
    unlockResults := [], snapshots := [], records := [], recordsHourly := [], uptimeDaily := [], probeInterval := none,
    probeTargets := [], probeConfigs := [], probeRecords := [], online := fun _ => true, latestReports := fun _ => none }

def rekeying : Maintenance :=
  { id := "m1", title := "Rotate the keys", description := none, startAt := 0, endAt := hour, serverIds := some (some ["web"]),
    isPublic := false, active := true }

def noon : Env ℚ := ⟨0, [], 240, 500⟩

theorem agree_rekeying : Agree (twoServers [rekeying]) (twoServers []) :=
  { Agree.refl (twoServers []) with maintenances := rfl }

/-- a window that no page lists is seen all the same -/
theorem rekeying_seen : ¬ ∀ hash hash' request,
    Lib.Related Same (answer hash noon (twoServers [rekeying]) request) (answer hash' noon (twoServers []) request) := by
  intro h
  have hflag := (answers_same_iff agree_rekeying noon).1 h openPage rfl rfl (named "web" false) (by decide)
  exact absurd hflag (by decide)

end ServerBee.Status
