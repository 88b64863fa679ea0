/-
Which blocks get into the block list while agents report their addresses (`create_block`, `auto_block`,
`collect_dynamic_allow`, `note_agent_external_ip`, and the two messages that carry addresses, `SystemInfo` and `IpChanged`).

A task is a call or the handler of a message, up to its next await: an address is noted after the message has arrived, and
a block is inserted after it was checked. `Upholds` is what an insert should be; `Orderly` is what the reports must be for it
(`guarded_inserts`). Only one address of a report is noted: `second_address_blocked`.
-/
import ServerBee.Firewall.Distribution
import ServerBee.Firewall.Guardrail
import ServerBee.Lib.Run

namespace ServerBee.Firewall.Protection

open ServerBee.Lib

/-! ## State -/

structure Config where
  /-- `[firewall] allow_list` -/
  allowList : List String
  /-- `[server] trusted_proxies` -/
  trustedProxies : List IpNet

/-- the addresses of a `SystemInfo` or an `IpChanged` -/
structure Report where
  ipv4 : Option String
  ipv6 : Option String
deriving DecidableEq, Repr

inductive Task where
  | idle
  /-- `on_system_info` before its transaction -/
  | systemInfo (serverId : ℕ) (report : Report)
  /-- before the address is noted -/
  | noting (serverId : ℕ) (report : Report)
  /-- `auto_block` before it looks up the target -/
  | lookup (req : BlockReq)
  | checking (req : BlockReq)
  | inserting (req : BlockReq)
deriving DecidableEq, Repr

structure St where
  rows : BlockList
  /-- the noted addresses, at most one of a server -/
  externalIps : List (ℕ × IpAddr)
  tasks : ℕ → Task
  /-- what each agent reported last -/
  latest : ℕ → Option Report

def St.new : St := ⟨∅, [], fun _ => .idle, fun _ => none⟩

def St.goto (s : St) (t : ℕ) (task : Task) : St := { s with tasks := Function.update s.tasks t task }

/-! ## Steps -/

/-- a call, or a message that arrives -/
inductive Call where
  | systemInfo (serverId : ℕ) (report : Report)
  | ipChanged (serverId : ℕ) (report : Report)
  | createBlock (input coverType : String) (serverIds : List ℕ) (createdAt : ℤ)
  | autoBlock (sourceIp coverType : String) (serverIds : List ℕ) (createdAt : ℤ)
deriving DecidableEq, Repr

inductive Op where
  | start (t : ℕ) (call : Call)
  /-- `ok`: the task's statement, if it runs one, succeeds; `id`: the id that it draws, if it draws one -/
  | advance (t : ℕ) (ok : Bool) (id : ℕ)
deriving DecidableEq, Repr

section Steps

variable (T : IpText) (config : Config)

def noteAgentExternalIp (ips : List (ℕ × IpAddr)) (serverId : ℕ) (ip : Option IpAddr) : List (ℕ × IpAddr) :=
  ips.filter (fun p => p.1 != serverId) ++ ip.toList.map fun ip => (serverId, ip)

/-- the address that is noted: IPv4 before IPv6 -/
def Report.fwIp (r : Report) : Option IpAddr := (r.ipv4.or r.ipv6).bind T.parseAddr

def collectDynamicAllow (s : St) : List String :=
  config.trustedProxies.map T.showNet ++ s.externalIps.map fun p => T.showAddr p.2

def requested (req : Except String (String × ℕ)) (coverType : String) (serverIds : List ℕ) (createdAt : ℤ) : Option BlockReq :=
  match req with
  | .error _ => none
  | .ok (target, family) => some ⟨target, family, coverType, serverIds, createdAt⟩

def Call.task : Call → Task
  | .systemInfo serverId report => .systemInfo serverId report
  | .ipChanged serverId report => .noting serverId report
  | .createBlock input coverType serverIds createdAt =>
    (requested (canonicalizeTarget T input) coverType serverIds createdAt).elim .idle .checking
  | .autoBlock sourceIp coverType serverIds createdAt =>
    (requested (canonicalizeTarget T sourceIp) coverType serverIds createdAt).elim .idle .lookup

def Call.report : Call → Option (ℕ × Report)
  | .systemInfo serverId report => some (serverId, report)
  | .ipChanged serverId report => some (serverId, report)
  | _ => none

def St.arrive (s : St) (call : Call) : St :=
  match call.report with
  | none => s
  | some (serverId, report) => { s with latest := Function.update s.latest serverId (some report) }

def St.insertBlock (s : St) (row : BlockRow) : St :=
  if s.rows.rows.any fun r => r.target == row.target then s
  else
    match s.rows.insert row with
    | none => s
    | some rows => { s with rows := rows }

def St.advance (s : St) (t : ℕ) (ok : Bool) (id : ℕ) : St :=
  match s.tasks t with
  | .idle => s
  | .systemInfo serverId report => s.goto t (if ok then .noting serverId report else .idle)
  | .noting serverId report =>
    { s with externalIps := noteAgentExternalIp s.externalIps serverId (report.fwIp T) }.goto t .idle
  | .lookup req =>
    -- a row with the target ends the call, whether it covers the server or not
    if ok ∧ ¬ s.rows.rows.any (fun r => r.target == req.target) then s.goto t (.checking req) else s.goto t .idle
  | .checking req =>
    match isProtected T req.target (config.allowList ++ collectDynamicAllow T config s) with
    | some _ => s.goto t .idle
    | none => s.goto t (.inserting req)
  | .inserting req => (if ok then s.insertBlock (req.row id) else s).goto t .idle

def step (s : St) : Op → St
  | .start t call => if s.tasks t = .idle then (s.arrive call).goto t (call.task T) else s
  | .advance t ok id => s.advance T config t ok id

end Steps

/-! ## What an insert should be -/

section Guarded

variable (T : IpText) (config : Config)

/-- every address of a report -/
def Report.addresses (r : Report) : Set IpAddr :=
  {ip | (∃ v4, r.ipv4 = some v4 ∧ T.parseAddr v4 = some ip) ∨ ∃ v6, r.ipv6 = some v6 ∧ T.parseAddr v6 = some ip}

/-- the target is disjoint from the ranges that the configuration and the code protect -/
structure Avoids (net : IpNet) : Prop where
  hardCoded : ∀ p ∈ protectedCidrs, Disjoint net.addrs p.2.addrs
  allowList : ∀ raw ∈ config.allowList, ∀ net', T.read raw = some net' → Disjoint net.addrs net'.addrs
  proxies : ∀ proxy ∈ config.trustedProxies, Disjoint net.addrs proxy.addrs

/-- a target that may be blocked -/
structure Guarded (s : St) (target : String) (net : IpNet) : Prop where
  read : T.read target = some net
  avoids : Avoids T config net
  reported : ∀ serverId report, s.latest serverId = some report → Disjoint net.addrs (report.addresses T)

def Upholds (s : St) (op : Op) : Prop :=
  ∀ row ∈ (step T config s op).rows, row ∉ s.rows → ∃ net, Guarded T config s row.target net

end Guarded

/-! ## What the reports must be -/

section Orderly

variable (T : IpText)

/-- a report that is being handled -/
def Task.report : Task → Option (ℕ × Report)
  | .systemInfo serverId report => some (serverId, report)
  | .noting serverId report => some (serverId, report)
  | _ => none

/-- no second address: an IPv6 text beside an IPv4 text is no address, or the same -/
def Report.Single (r : Report) : Prop :=
  ∀ v4 v6, r.ipv4 = some v4 → r.ipv6 = some v6 → T.parseAddr v6 = none ∨ T.parseAddr v6 = T.parseAddr v4

/-- no address of the report is in the target -/
def Spares (report : Report) (target : String) : Prop :=
  ∀ net, T.read target = some net → Disjoint net.addrs (report.addresses T)

/-- a report that arrives -/
structure OrderlyReport (s : St) (serverId : ℕ) (report : Report) : Prop where
  single : report.Single T
  /-- the server's last one has been handled -/
  alone : ∀ t report', (s.tasks t).report ≠ some (serverId, report')
  /-- a block that has been checked, and not inserted yet, has none of its addresses -/
  checked : ∀ t req, s.tasks t = .inserting req → Spares T report req.target

/-- **When blocks stay off the agents.** Each report has one address and is handled before the next one of its server, in a
`SystemInfo` that fails there is no address that was not noted before, and while a report is handled no block of its
addresses is checked or inserted. -/
def Orderly (s : St) : Op → Prop
  | .start t call => s.tasks t = .idle → ∀ serverId report, call.report = some (serverId, report) →
    OrderlyReport T s serverId report
  | .advance t ok _ =>
    match s.tasks t with
    | .systemInfo serverId report => ok = false → ∀ ip ∈ report.addresses T, (serverId, ip) ∈ s.externalIps
    | .checking req => ∀ t' serverId report, (s.tasks t').report = some (serverId, report) → Spares T report req.target
    | _ => True

end Orderly

/-! ## Invariant -/

def Task.request : Task → Option BlockReq
  | .lookup req => some req
  | .checking req => some req
  | .inserting req => some req
  | _ => none

section Invariant

variable (T : IpText) (config : Config)

structure Inv (s : St) : Prop where
  /-- an address that was reported last is noted, or its report is being handled -/
  noted : ∀ serverId report, s.latest serverId = some report → ∀ ip ∈ report.addresses T,
    (serverId, ip) ∈ s.externalIps ∨ ∃ t, (s.tasks t).report = some (serverId, report)
  flight : ∀ t serverId report, (s.tasks t).report = some (serverId, report) →
    s.latest serverId = some report ∧ report.Single T
  canonical : ∀ t req, (s.tasks t).request = some req → ∃ net, T.read req.target = some net ∧ T.parseAddr req.target = none
  checked : ∀ t req, s.tasks t = .inserting req → ∃ net, Guarded T config s req.target net

end Invariant

section Steps

variable {T : IpText} {config : Config} {s : St}

theorem inv_new : Inv T config St.new :=
  ⟨fun _ _ h => (by cases h), fun _ _ _ h => (by cases h), fun _ _ h => (by cases h),
    fun _ _ h => Task.noConfusion h⟩

theorem tasks_goto (t : ℕ) (task : Task) (t' : ℕ) : (s.goto t task).tasks t' = if t' = t then task else s.tasks t' :=
  Function.update_apply ..

/-- a task moves on -/
theorem inv_goto (h : Inv T config s) {t : ℕ} {task : Task}
    (hflight : ∀ n r, task.report = some (n, r) → s.latest n = some r ∧ r.Single T)
    (hnoted : ∀ n r, (s.tasks t).report = some (n, r) → task.report = some (n, r) ∨
      ∀ ip ∈ r.addresses T, (n, ip) ∈ s.externalIps)
    (hcanonical : ∀ req, task.request = some req → ∃ net, T.read req.target = some net ∧ T.parseAddr req.target = none)
    (hchecked : ∀ req, task = .inserting req → ∃ net, Guarded T config s req.target net) :
    Inv T config (s.goto t task) := by
  refine ⟨fun n r hr ip hip => ?_, fun t' n r hr => ?_, fun t' req hreq => ?_, fun t' req hreq => ?_⟩
  · rcases h.noted n r hr ip hip with hmem | ⟨t', ht'⟩
    · exact Or.inl hmem
    · by_cases heq : t' = t
      · subst heq
        rcases hnoted n r ht' with hsame | hall
        · exact Or.inr ⟨t', by rw [tasks_goto, if_pos rfl]; exact hsame⟩
        · exact Or.inl (hall ip hip)
      · exact Or.inr ⟨t', by rw [tasks_goto, if_neg heq]; exact ht'⟩
  · rw [tasks_goto] at hr
    split_ifs at hr
    · exact hflight n r hr
    · exact h.flight t' n r hr
  · rw [tasks_goto] at hreq
    split_ifs at hreq
    · exact hcanonical req hreq
    · exact h.canonical t' req hreq
  · have hguarded : ∃ net, Guarded T config s req.target net := by
      rw [tasks_goto] at hreq
      split_ifs at hreq
      · exact hchecked req hreq
      · exact h.checked t' req hreq
    obtain ⟨net, hread, havoids, hreported⟩ := hguarded
    exact ⟨net, hread, havoids, hreported⟩

theorem inv_idle (h : Inv T config s) {t : ℕ} (hnoted : ∀ n r, (s.tasks t).report = some (n, r) →
    ∀ ip ∈ r.addresses T, (n, ip) ∈ s.externalIps) : Inv T config (s.goto t .idle) :=
  inv_goto h (fun _ _ hr => by cases hr) (fun n r hr => Or.inr (hnoted n r hr))
    (fun _ hreq => by cases hreq) fun _ hreq => Task.noConfusion hreq

theorem requested_canonical (hT : T.Lawful) {input coverType : String} {serverIds : List ℕ} {createdAt : ℤ} {req : BlockReq}
    (h : requested (canonicalizeTarget T input) coverType serverIds createdAt = some req) :
    ∃ net, T.read req.target = some net ∧ T.parseAddr req.target = none := by
  cases hc : canonicalizeTarget T input with
  | error e =>
    rw [hc] at h
    cases h
  | ok target =>
    obtain ⟨target, family⟩ := target
    rw [hc] at h
    obtain ⟨net, -, rfl, -⟩ := canonicalizeTarget_eq_ok.1 hc
    obtain rfl := Option.some.inj h
    exact ⟨net.canonical, hT.read_showNet _, hT.parseAddr_showNet _⟩

/-- the task of a block call, that may be refused -/
theorem elim_idle {α : Type} (o : Option BlockReq) (f : BlockReq → Task) (g : Task → Option α) (hidle : g .idle = none) :
    g (o.elim .idle f) = o.bind fun req => g (f req) := by
  cases o with
  | none => exact hidle
  | some req => rfl

theorem call_request (hT : T.Lawful) {call : Call} {req : BlockReq} (h : (call.task T).request = some req) :
    ∃ net, T.read req.target = some net ∧ T.parseAddr req.target = none := by
  cases call with
  | systemInfo n r => cases h
  | ipChanged n r => cases h
  | createBlock input coverType serverIds createdAt =>
    rw [Call.task, elim_idle _ _ Task.request rfl] at h
    obtain ⟨req', hreq, heq⟩ := Option.bind_eq_some_iff.1 h
    obtain rfl : req' = req := Option.some.inj heq
    exact requested_canonical hT hreq
  | autoBlock input coverType serverIds createdAt =>
    rw [Call.task, elim_idle _ _ Task.request rfl] at h
    obtain ⟨req', hreq, heq⟩ := Option.bind_eq_some_iff.1 h
    obtain rfl : req' = req := Option.some.inj heq
    exact requested_canonical hT hreq

theorem call_report (call : Call) : (call.task T).report = call.report := by
  cases call with
  | systemInfo n r => rfl
  | ipChanged n r => rfl
  | createBlock input coverType serverIds createdAt =>
    rw [Call.task, elim_idle _ _ Task.report rfl]
    exact Option.bind_fun_none _
  | autoBlock input coverType serverIds createdAt =>
    rw [Call.task, elim_idle _ _ Task.report rfl]
    exact Option.bind_fun_none _

theorem call_not_inserting (call : Call) (req : BlockReq) : call.task T ≠ .inserting req := by
  cases call with
  | systemInfo n r => exact Task.noConfusion
  | ipChanged n r => exact Task.noConfusion
  | createBlock input coverType serverIds createdAt =>
    rw [Call.task]
    cases requested (canonicalizeTarget T input) coverType serverIds createdAt <;> exact Task.noConfusion
  | autoBlock input coverType serverIds createdAt =>
    rw [Call.task]
    cases requested (canonicalizeTarget T input) coverType serverIds createdAt <;> exact Task.noConfusion

/-- a call starts, or a message arrives -/
theorem inv_start (hT : T.Lawful) (h : Inv T config s) {t : ℕ} {call : Call} (hidle : s.tasks t = .idle)
    (horderly : ∀ n r, call.report = some (n, r) → OrderlyReport T s n r) :
    Inv T config ((s.arrive call).goto t (call.task T)) := by
  cases hcall : call.report with
  | none =>
    rw [St.arrive, hcall]
    refine inv_goto h (fun n r hr => ?_) (fun n r hr => ?_) (fun req => call_request hT)
      fun req hreq => absurd hreq (call_not_inserting call req)
    · rw [call_report, hcall] at hr
      cases hr
    · rw [hidle] at hr
      cases hr
  | some p =>
    obtain ⟨serverId, report⟩ := p
    obtain ⟨hsingle, halone, hspares⟩ := horderly serverId report hcall
    rw [St.arrive, hcall]
    have htask : (call.task T).report = some (serverId, report) := (call_report call).trans hcall
    have hnoreport : ∀ t' n r, (s.tasks t').report = some (n, r) → t' ≠ t := fun t' n r hr heq => by
      rw [heq, hidle] at hr
      cases hr
    refine ⟨fun n r hr ip hip => ?_, fun t' n r hr => ?_, fun t' req hreq => ?_, fun t' req hreq => ?_⟩
    · by_cases hn : n = serverId
      · subst hn
        have hsame : Function.update s.latest n (some report) n = some r := hr
        rw [Function.update_self] at hsame
        obtain rfl : report = r := Option.some.inj hsame
        exact Or.inr ⟨t, by rw [tasks_goto, if_pos rfl]; exact htask⟩
      · have hold : Function.update s.latest serverId (some report) n = some r := hr
        rw [Function.update_of_ne hn] at hold
        refine (h.noted n r hold ip hip).imp_right fun ⟨t', ht'⟩ => ⟨t', ?_⟩
        rw [tasks_goto, if_neg (hnoreport t' n r ht')]
        exact ht'
    · show Function.update s.latest serverId (some report) n = some r ∧ _
      rw [tasks_goto] at hr
      split_ifs at hr
      · obtain ⟨rfl, rfl⟩ := Prod.mk.inj (Option.some.inj (htask.symm.trans hr))
        exact ⟨Function.update_self .., hsingle⟩
      · have hne : n ≠ serverId := fun heq => halone t' r (heq ▸ hr)
        rw [Function.update_of_ne hne]
        exact h.flight t' n r hr
    · rw [tasks_goto] at hreq
      split_ifs at hreq
      · exact call_request hT hreq
      · exact h.canonical t' req hreq
    · rw [tasks_goto] at hreq
      split_ifs at hreq
      · exact absurd hreq (call_not_inserting call req)
      · obtain ⟨net, hread, havoids, hreported⟩ := h.checked t' req hreq
        refine ⟨net, hread, havoids, fun n r hr => ?_⟩
        have hlatest : Function.update s.latest serverId (some report) n = some r := hr
        by_cases hn : n = serverId
        · subst hn
          rw [Function.update_self] at hlatest
          obtain rfl : report = r := Option.some.inj hlatest
          exact hspares t' req hreq net hread
        · rw [Function.update_of_ne hn] at hlatest
          exact hreported n r hlatest

/-! ## A task's next step -/

theorem mem_note {ips : List (ℕ × IpAddr)} {serverId n : ℕ} {ip : Option IpAddr} {a : IpAddr} :
    (n, a) ∈ noteAgentExternalIp ips serverId ip ↔ (n, a) ∈ ips ∧ n ≠ serverId ∨ n = serverId ∧ ip = some a := by
  unfold noteAgentExternalIp
  rw [List.mem_append, List.mem_filter]
  refine or_congr (and_congr_right fun _ => bne_iff_ne) ?_
  cases ip with
  | none => simp
  | some b => simp [eq_comm]

/-- of a report with one address, the address that is noted -/
theorem fwIp_of_single {r : Report} (h : r.Single T) {a : IpAddr} (ha : a ∈ r.addresses T) : r.fwIp T = some a := by
  unfold Report.fwIp
  rcases ha with ⟨v4, hv4, hparse⟩ | ⟨v6, hv6, hparse⟩
  · rw [hv4]
    exact hparse
  · rw [hv6]
    cases hv4 : r.ipv4 with
    | none => exact hparse
    | some v4 =>
      rcases h v4 v6 hv4 hv6 with hnone | hsame
      · cases hnone.symm.trans hparse
      · exact hsame.symm.trans hparse

/-- the address is noted -/
theorem inv_note (h : Inv T config s) {t serverId : ℕ} {report : Report} (ht : s.tasks t = .noting serverId report) :
    Inv T config
      ({ s with externalIps := noteAgentExternalIp s.externalIps serverId (report.fwIp T) }.goto t .idle) := by
  obtain ⟨hlatest, hsingle⟩ := h.flight t serverId report (by rw [ht]; rfl)
  have hall : ∀ ip ∈ report.addresses T, (serverId, ip) ∈ noteAgentExternalIp s.externalIps serverId (report.fwIp T) :=
    fun ip hip => mem_note.2 (Or.inr ⟨rfl, fwIp_of_single hsingle hip⟩)
  have hmid : Inv T config { s with externalIps := noteAgentExternalIp s.externalIps serverId (report.fwIp T) } := by
    refine ⟨fun n r hr ip hip => ?_, h.flight, h.canonical, fun t' req hreq => ?_⟩
    · by_cases hn : n = serverId
      · subst hn
        obtain rfl : report = r := Option.some.inj (hlatest.symm.trans hr)
        exact Or.inl (hall ip hip)
      · exact (h.noted n r hr ip hip).imp_left fun hmem => mem_note.2 (Or.inl ⟨hmem, hn⟩)
    · obtain ⟨net, hread, havoids, hreported⟩ := h.checked t' req hreq
      exact ⟨net, hread, havoids, hreported⟩
  refine inv_idle hmid fun n r hr ip hip => ?_
  have hflight : (s.tasks t).report = some (n, r) := hr
  rw [ht] at hflight
  obtain ⟨rfl, rfl⟩ := Prod.mk.inj (Option.some.inj hflight)
  exact hall ip hip

/-- a check that refuses nothing -/
theorem guarded_of_unprotected (hT : T.Lawful) (h : Inv T config s) {req : BlockReq} {net : IpNet}
    (hread : T.read req.target = some net) (haddr : T.parseAddr req.target = none)
    (hcheck : isProtected T req.target (config.allowList ++ collectDynamicAllow T config s) = none)
    (hflight : ∀ t n r, (s.tasks t).report = some (n, r) → Spares T r req.target) : Guarded T config s req.target net := by
  have hfree := mt (isProtected_iff hT hread haddr (config.allowList ++ collectDynamicAllow T config s)).2
    (by rw [hcheck]; exact Bool.false_ne_true)
  obtain ⟨hhard, hallow⟩ := not_or.1 hfree
  have hdisjoint : ∀ raw ∈ config.allowList ++ collectDynamicAllow T config s, ∀ net', T.read raw = some net' →
      Disjoint net.addrs net'.addrs := fun raw hraw net' hnet' => by
    by_contra hmeets
    exact hallow ⟨raw, hraw, net', hnet', hmeets⟩
  refine ⟨hread, ⟨fun p hp => ?_, fun raw hraw => hdisjoint raw (List.mem_append_left _ hraw), fun proxy hproxy => ?_⟩, ?_⟩
  · by_contra hmeets
    exact hhard ⟨p, hp, hmeets⟩
  · refine hdisjoint (T.showNet proxy) ?_ proxy (hT.read_showNet proxy)
    exact List.mem_append_right _ (List.mem_append_left _ (List.mem_map_of_mem hproxy))
  · intro n r hr
    rw [Set.disjoint_right]
    intro ip hip
    rcases h.noted n r hr ip hip with hmem | ⟨t, ht⟩
    · have hraw : T.showAddr ip ∈ collectDynamicAllow T config s :=
        List.mem_append_right _ (List.mem_map.2 ⟨(n, ip), hmem, rfl⟩)
      have hsingle := hdisjoint _ (List.mem_append_right _ hraw) _ (hT.read_showAddr ip)
      exact Set.disjoint_right.1 hsingle (IpNet.mem_single.2 rfl)
    · exact Set.disjoint_right.1 (hflight t n r ht net hread) hip

theorem insertBlock_same (row : BlockRow) : (s.insertBlock row).latest = s.latest ∧ (s.insertBlock row).tasks = s.tasks ∧
    (s.insertBlock row).externalIps = s.externalIps := by
  unfold St.insertBlock
  split_ifs
  · exact ⟨rfl, rfl, rfl⟩
  · cases s.rows.insert row <;> exact ⟨rfl, rfl, rfl⟩

theorem mem_insertBlock {row row' : BlockRow} (h : row' ∈ (s.insertBlock row).rows) : row' ∈ s.rows ∨ row' = row := by
  unfold St.insertBlock at h
  split_ifs at h
  · exact Or.inl h
  · cases hrows : s.rows.insert row with
    | none =>
      rw [hrows] at h
      exact Or.inl h
    | some rows =>
      rw [hrows] at h
      exact (Table.mem_insert hrows).1 h

/-- only the columns of the invariant count -/
theorem Inv.congr {s' : St} (h : Inv T config s) (hlatest : s'.latest = s.latest) (htasks : s'.tasks = s.tasks)
    (hips : s'.externalIps = s.externalIps) : Inv T config s' := by
  obtain ⟨hnoted, hflight, hcanonical, hchecked⟩ := h
  refine ⟨?_, ?_, ?_, fun t req hreq => ?_⟩
  · rw [hlatest, htasks, hips]
    exact hnoted
  · rw [hlatest, htasks]
    exact hflight
  · rw [htasks]
    exact hcanonical
  · obtain ⟨net, hread, havoids, hreported⟩ := hchecked t req (htasks ▸ hreq)
    exact ⟨net, hread, havoids, hlatest ▸ hreported⟩

theorem inv_advance (hT : T.Lawful) (h : Inv T config s) {t id : ℕ} {ok : Bool} (ho : Orderly T s (.advance t ok id)) :
    Inv T config (s.advance T config t ok id) := by
  simp only [Orderly] at ho
  unfold St.advance
  have hnone : ∀ task, s.tasks t = task → task.report = none →
      ∀ n r, (s.tasks t).report = some (n, r) → ∀ ip ∈ r.addresses T, (n, ip) ∈ s.externalIps := fun task ht hno n r hr => by
    rw [ht, hno] at hr
    cases hr
  cases ht : s.tasks t with
  | idle => exact h
  | systemInfo serverId report =>
    rw [ht] at ho
    obtain ⟨hlatest, hsingle⟩ := h.flight t serverId report (by rw [ht]; rfl)
    cases ok with
    | true =>
      refine inv_goto h (fun n r hr => ?_) (fun n r hr => Or.inl ?_) (fun _ hreq => by cases hreq) fun _ hreq => by cases hreq
      · obtain ⟨rfl, rfl⟩ := Prod.mk.inj (Option.some.inj hr)
        exact ⟨hlatest, hsingle⟩
      · rw [ht] at hr
        exact hr
    | false =>
      refine inv_idle h fun n r hr => ?_
      rw [ht] at hr
      obtain ⟨rfl, rfl⟩ := Prod.mk.inj (Option.some.inj hr)
      exact ho rfl
  | noting serverId report => exact inv_note h ht
  | lookup req =>
    dsimp only
    split_ifs
    · refine inv_goto h (fun n r hr => by cases hr) (fun n r hr => Or.inr (hnone _ ht rfl n r hr)) (fun req' hreq => ?_)
        fun _ hreq => by cases hreq
      obtain rfl : req = req' := Option.some.inj hreq
      exact h.canonical t req (by rw [ht]; rfl)
    · exact inv_idle h (hnone _ ht rfl)
  | checking req =>
    rw [ht] at ho
    dsimp only
    obtain ⟨net, hread, haddr⟩ := h.canonical t req (by rw [ht]; rfl)
    cases hcheck : isProtected T req.target (config.allowList ++ collectDynamicAllow T config s) with
    | some reason => exact inv_idle h (hnone _ ht rfl)
    | none =>
      refine inv_goto h (fun n r hr => by cases hr) (fun n r hr => Or.inr (hnone _ ht rfl n r hr)) (fun req' hreq => ?_)
        fun req' hreq => ?_
      · obtain rfl : req = req' := Option.some.inj hreq
        exact ⟨net, hread, haddr⟩
      · obtain rfl := Task.inserting.inj hreq
        exact ⟨net, guarded_of_unprotected hT h hread haddr hcheck ho⟩
  | inserting req =>
    cases ok with
    | false => exact inv_idle h (hnone _ ht rfl)
    | true =>
      obtain ⟨hlatest, htasks, hips⟩ := insertBlock_same (s := s) (req.row id)
      refine inv_idle (h.congr hlatest htasks hips) fun n r hr => ?_
      rw [htasks] at hr
      rw [hips]
      exact hnone _ ht rfl n r hr

theorem inv_step (hT : T.Lawful) (op : Op) (h : Inv T config s) (ho : Orderly T s op) : Inv T config (step T config s op) := by
  cases op with
  | start t call =>
    rw [step]
    split_ifs with hidle
    · exact inv_start hT h hidle (ho hidle)
    · exact h
  | advance t ok id => exact inv_advance hT h ho

/-- only the insert adds a row -/
theorem upholds_of_inv (h : Inv T config s) (op : Op) : Upholds T config s op := by
  intro row hrow hnew
  cases op with
  | start t call =>
    refine absurd ?_ hnew
    rw [step] at hrow
    split_ifs at hrow
    · have harrive : (s.arrive call).rows = s.rows := by
        unfold St.arrive
        cases call.report <;> rfl
      exact harrive ▸ hrow
    · exact hrow
  | advance t ok id =>
    rw [step, St.advance] at hrow
    cases ht : s.tasks t with
    | inserting req =>
      rw [ht] at hrow
      cases ok with
      | false => exact absurd hrow hnew
      | true =>
        rcases mem_insertBlock hrow with hold | rfl
        · exact absurd hold hnew
        · exact h.checked t req ht
    | lookup req =>
      rw [ht] at hrow
      dsimp only at hrow
      split_ifs at hrow
      · exact absurd hrow hnew
      · exact absurd hrow hnew
    | checking req =>
      rw [ht] at hrow
      dsimp only at hrow
      split at hrow
      · exact absurd hrow hnew
      · exact absurd hrow hnew
    | _ =>
      rw [ht] at hrow
      exact absurd hrow hnew

end Steps

/-! ## Main result -/

/-- what holds of targets at all times -/
structure Targets (T : IpText) : Prop where
  /-- a text that denotes no network is refused -/
  refuses : ∀ input, T.read input = none → canonicalizeTarget T input = .error ("invalid IP or CIDR: " ++ input)
  denotes : ∀ input target family, canonicalizeTarget T input = .ok (target, family) →
    ∃ net net', T.read input = some net ∧ T.read target = some net' ∧ net'.addrs = net.addrs
  idempotent : ∀ input target family, canonicalizeTarget T input = .ok (target, family) →
    canonicalizeTarget T target = .ok (target, family)
  unique : ∀ input input' net net', T.read input = some net → T.read input' = some net' → net.addrs = net'.addrs →
    canonicalizeTarget T input = canonicalizeTarget T input'
  protects : ∀ input target family, canonicalizeTarget T input = .ok (target, family) → ∀ allow,
    ((isProtected T target allow).isSome = true ↔ ∃ net, T.read target = some net ∧
      ((∃ p ∈ protectedCidrs, ¬ Disjoint net.addrs p.2.addrs) ∨
        ∃ raw ∈ allow, ∃ net', T.read raw = some net' ∧ ¬ Disjoint net.addrs net'.addrs))

theorem targets {T : IpText} (hT : T.Lawful) : Targets T where
  refuses input h := by rw [canonicalizeTarget_eq, h]
  denotes input target family h := by
    obtain ⟨net, hread, htarget, -⟩ := read_canonical hT h
    exact ⟨net, net.canonical, hread, htarget, net.addrs_canonical⟩
  idempotent input target family h := canonicalize_idempotent hT h
  unique input input' net net' h h' haddrs := canonicalize_unique h h' haddrs
  protects input target family h allow := by
    obtain ⟨net, -, rfl, -⟩ := canonicalizeTarget_eq_ok.1 h
    rw [isProtected_iff hT (hT.read_showNet _) (hT.parseAddr_showNet _), hT.read_showNet]
    simp

/-- **Inserted blocks cover no protected address** while the reports are orderly; and what a canonical target says and
when it is protected. -/
theorem guarded_inserts {T : IpText} (hT : T.Lawful) (config : Config) :
    Targets T ∧ ∀ ops, Along (step T config) (Orderly T) St.new ops → Along (step T config) (Upholds T config) St.new ops := by
  refine ⟨targets hT, fun ops hops => ?_⟩
  exact hops.of_invariant (fun s op hs ho => inv_step hT op hs ho) (fun s op hs _ => upholds_of_inv hs op) inv_new

/-! ## Two addresses -/

def noConfig : Config := ⟨[], []⟩

/-- a report, and then a block of an address -/
def reportThenBlock (report : Report) (target : String) : List Op := [
  .start 0 (.ipChanged 7 report),
  .advance 0 true 0,
  .start 1 (.createBlock target "all" [] 0),
  .advance 1 true 0,
  .advance 1 true 1]

/-- **Of two addresses the second can be blocked.** An agent reports an IPv4 and an IPv6 address; only the first is noted. -/
theorem second_address_blocked : ¬ Along (step plainText noConfig) (Upholds plainText noConfig) St.new
    (reportThenBlock ⟨some "203.0.113.9", some "2001:db8:1:2:3:4:5:6"⟩ "2001:db8:1:2:3:4:5:6") := by
  rintro ⟨-, -, -, -, hinsert, -⟩
  have hrows : (runs (step plainText noConfig) St.new
      (reportThenBlock ⟨some "203.0.113.9", some "2001:db8:1:2:3:4:5:6"⟩ "2001:db8:1:2:3:4:5:6")).rows.rows =
      [⟨1, "2001:db8:1:2:3:4:5:6/128", 6, "all", [], 0⟩] := by decide +kernel
  obtain ⟨net, hread, -, hreported⟩ := hinsert _ (hrows ▸ List.mem_singleton_self _) List.not_mem_nil
  have hparse : plainText.parseAddr "2001:db8:1:2:3:4:5:6" =
      some ⟨.v6, 0x20010db8000100020003000400050006, by decide⟩ := by decide +kernel
  have hnet : plainText.read "2001:db8:1:2:3:4:5:6/128" =
      some (IpNet.single ⟨.v6, 0x20010db8000100020003000400050006, by decide⟩) := by decide +kernel
  obtain rfl := Option.some.inj (hread.symm.trans hnet)
  refine Set.disjoint_left.1 (hreported 7 _ rfl) (IpNet.mem_single.2 rfl) (Or.inr ⟨_, rfl, hparse⟩)

/-- a report of one address, and a block of another -/
theorem guarded_inserts_single : Targets plainText ∧ Along (step plainText noConfig) (Upholds plainText noConfig) St.new
    (reportThenBlock ⟨some "203.0.113.9", none⟩ "198.51.100.7") := by
  refine ⟨(guarded_inserts plainText_lawful noConfig).1, (guarded_inserts plainText_lawful noConfig).2 _ ⟨?_, ?_, ?_, ?_, ?_, trivial⟩⟩
  · intro _ n r hr
    obtain ⟨rfl, rfl⟩ := Prod.mk.inj (Option.some.inj hr)
    exact ⟨fun v4 v6 _ hv6 => (by cases hv6), fun _ _ h => (by cases h), fun _ _ h => (by cases h)⟩
  · trivial
  · intro _ n r hr
    cases hr
  · show Orderly plainText (runs (step plainText noConfig) St.new
      ((reportThenBlock ⟨some "203.0.113.9", none⟩ "198.51.100.7").take 3)) (.advance 1 true 0)
    have ht : (runs (step plainText noConfig) St.new
        ((reportThenBlock ⟨some "203.0.113.9", none⟩ "198.51.100.7").take 3)).tasks 1 =
        .checking ⟨"198.51.100.7/32", 4, "all", [], 0⟩ := by decide +kernel
    simp only [Orderly]
    rw [ht]
    intro t' n r hr
    rcases t' with _ | _ | t'
    · cases hr
    · rw [ht] at hr
      cases hr
    · cases hr
  · show Orderly plainText (runs (step plainText noConfig) St.new
      ((reportThenBlock ⟨some "203.0.113.9", none⟩ "198.51.100.7").take 4)) (.advance 1 true 1)
    have ht : (runs (step plainText noConfig) St.new
        ((reportThenBlock ⟨some "203.0.113.9", none⟩ "198.51.100.7").take 4)).tasks 1 =
        .inserting ⟨"198.51.100.7/32", 4, "all", [], 0⟩ := by decide +kernel
    simp only [Orderly]
    rw [ht]
    trivial

end ServerBee.Firewall.Protection
