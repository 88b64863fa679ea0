/-
Whether the stored rules pass the validators.

The validators read of an item its type only (`validateAlertRuleItems_congr`, `validateActions_congr`), so a rule that is
read back passes when the input that was written did. `create` checks all fields together. `update` checks a new list of
actions against the rules that will be stored (`row_spec`), but not the stored actions against a new list of rules:
`row_valid_iff` says exactly when the row that an accepted update writes is valid. An event trusts the row: the first
security item decides the event types, the actions run unchecked (`executed_attack`).
-/
import ServerBee.Alerts.Rules

namespace ServerBee.AlertRules

open ServerBee.Lib

/-! ## Validators -/

section Validators

variable {items items' : List AlertRuleItem} {actions : List AlertRuleAction}

theorem validateAlertRuleItems_congr (h : items.map AlertRuleItem.kept = items'.map AlertRuleItem.kept) :
    validateAlertRuleItems items = validateAlertRuleItems items' := by
  have hlength : items.length = items'.length := by simpa using congrArg List.length h
  have hcount : (items.filter fun i => SECURITY_RULE_TYPES.contains i.ruleType).length =
      (items'.filter fun i => SECURITY_RULE_TYPES.contains i.ruleType).length := by
    have hcountP := congrArg (List.countP fun k => SECURITY_RULE_TYPES.contains k.1) h
    rw [List.countP_map, List.countP_map] at hcountP
    rw [← List.countP_eq_length_filter, ← List.countP_eq_length_filter]
    exact hcountP
  unfold validateAlertRuleItems
  rw [hlength, hcount]

theorem validateAction_congr (h : items.map AlertRuleItem.kept = items'.map AlertRuleItem.kept) :
    validateAction items = validateAction items' := by
  have hempty : items.isEmpty = items'.isEmpty := by simpa using congrArg List.isEmpty h
  have hall : (items.all fun r => SOURCE_IP_RULE_TYPES.contains r.ruleType) =
      items'.all fun r => SOURCE_IP_RULE_TYPES.contains r.ruleType := by
    have hall := congrArg (List.all · fun k => SOURCE_IP_RULE_TYPES.contains k.1) h
    simp only [List.all_map] at hall
    exact hall
  funext action
  cases action with
  | blockSourceIp coverType serverIdsJson comment =>
    unfold validateAction
    simp only [hempty, hall]

theorem validateActions_congr (h : items.map AlertRuleItem.kept = items'.map AlertRuleItem.kept) :
    validateActions items actions = validateActions items' actions := by
  unfold validateActions
  rw [validateAction_congr h]

theorem all_source_ip {action : AlertRuleAction} (h : validateAction items action = .ok ()) :
    (items.all fun r => SOURCE_IP_RULE_TYPES.contains r.ruleType) = true := by
  cases action with
  | blockSourceIp coverType serverIdsJson comment =>
    unfold validateAction at h
    by_contra hno
    rw [Bool.not_eq_true] at hno
    simp only [hno, or_true, if_true] at h
    split_ifs at h

/-- a rule with an action has the types that carry a source address, and no others -/
theorem source_ip_of_validateActions (h : validateActions items actions = .ok ()) {action : AlertRuleAction}
    (haction : action ∈ actions) : ∀ item ∈ items, item.ruleType ∈ SOURCE_IP_RULE_TYPES := by
  unfold validateActions at h
  match actions, haction, h with
  | [a], haction, h =>
    obtain rfl := List.mem_singleton.1 haction
    rw [if_neg (by simp), if_neg (by simp)] at h
    obtain ⟨u, hvalid, -⟩ := bind_ok.1 h
    intro item hitem
    exact List.contains_iff_mem.1 (List.all_eq_true.1 (all_source_ip hvalid) item hitem)
  | _ :: _ :: _, haction, h =>
    rw [if_neg (by simp), if_pos (by simp)] at h
    cases h

end Validators

/-! ## Valid rules -/

variable (serde : Serde)

structure AlertRule.Valid (rule : AlertRule) : Prop where
  items : validateAlertRuleItems (rule.items serde) = .ok ()
  actions : validateActions (rule.items serde) (rule.actions serde) = .ok ()
  coverType : validateCoverType rule.coverType = .ok ()

variable {serde}

section Rows

variable {row existing : AlertRule} {id : String} {now : ℤ}

theorem items_kept {rules : List AlertRuleItem} {text : String} (h : rulesJson serde rules = .ok text)
    (hrow : row.rulesJson = text) : (row.items serde).map AlertRuleItem.kept = rules.map AlertRuleItem.kept := by
  unfold rulesJson at h
  cases henc : serde.items.encode rules with
  | error e =>
    rw [henc] at h
    cases h
  | ok encoded =>
    rw [henc] at h
    obtain rfl := Except.ok.inj h
    have hdec := serde.items.decode_encode rules encoded henc
    obtain ⟨decoded, hdecoded, hkept⟩ := Option.map_eq_some_iff.1 hdec
    unfold AlertRule.items
    rw [hrow, hdecoded]
    exact hkept

theorem actions_kept {actions : List AlertRuleAction} {text : Option String} (h : actionsJson serde actions = .ok text)
    (hrow : row.actionsJson = text) : row.actions serde = actions := by
  unfold actionsJson at h
  split_ifs at h with hempty
  · have hnone := Except.ok.inj h
    unfold AlertRule.actions
    rw [hrow, ← hnone]
    exact (List.isEmpty_iff.1 hempty).symm
  · cases henc : serde.actions.encode actions with
    | error e =>
      rw [henc] at h
      cases h
    | ok encoded =>
      rw [henc] at h
      have hsome := Except.ok.inj h
      have hdec := serde.actions.decode_encode actions encoded henc
      rw [Option.map_id_fun, id_eq] at hdec
      unfold AlertRule.actions
      rw [hrow, ← hsome, Option.bind_some, hdec]
      rfl

theorem CreateAlertRule.row_valid {input : CreateAlertRule} (h : input.row serde id now = .ok row) : row.Valid serde := by
  obtain ⟨_, hcover, h⟩ := bind_ok.1 h
  obtain ⟨_, hitems, h⟩ := bind_ok.1 h
  obtain ⟨_, hactions, h⟩ := bind_ok.1 h
  obtain ⟨text, htext, h⟩ := bind_ok.1 h
  obtain ⟨actionsText, hactionsText, h⟩ := bind_ok.1 h
  obtain rfl := Except.ok.inj h
  constructor
  · rw [validateAlertRuleItems_congr (items_kept htext rfl)]
    exact hitems
  · rw [validateActions_congr (items_kept htext rfl), actions_kept hactionsText rfl]
    exact hactions
  · exact hcover

/-- what `update` writes, field by field -/
structure Written (serde : Serde) (input : UpdateAlertRule) (existing row : AlertRule) : Prop where
  id : row.id = existing.id
  oldRules : input.rules = none → row.rulesJson = existing.rulesJson
  newRules : ∀ rules, input.rules = some rules →
    validateAlertRuleItems rules = .ok () ∧ rulesJson serde rules = .ok row.rulesJson
  oldCoverType : input.coverType = none → row.coverType = existing.coverType
  newCoverType : ∀ coverType, input.coverType = some coverType →
    validateCoverType coverType = .ok () ∧ row.coverType = coverType
  oldActions : input.actions = none → row.actionsJson = existing.actionsJson
  newActions : ∀ actions, input.actions = some actions →
    validateActions (input.rules.getD (existing.items serde)) actions = .ok () ∧ actionsJson serde actions = .ok row.actionsJson

section Stages

variable {input : UpdateAlertRule} {model model' : AlertRule}

theorem setRules_ok {old effective : List AlertRuleItem} (h : setRules serde input old model = .ok (effective, model')) :
    (model'.id = model.id ∧ model'.coverType = model.coverType ∧ model'.actionsJson = model.actionsJson) ∧
      effective = input.rules.getD old ∧ (input.rules = none → model'.rulesJson = model.rulesJson) ∧
        ∀ rules, input.rules = some rules → validateAlertRuleItems rules = .ok () ∧ rulesJson serde rules = .ok model'.rulesJson := by
  unfold setRules at h
  cases hin : input.rules with
  | none =>
    rw [hin] at h
    cases h
    exact ⟨⟨rfl, rfl, rfl⟩, rfl, fun _ => rfl, nofun⟩
  | some rules =>
    rw [hin] at h
    obtain ⟨_, hvalid, h⟩ := bind_ok.1 h
    obtain ⟨text, htext, h⟩ := bind_ok.1 h
    cases h
    refine ⟨⟨rfl, rfl, rfl⟩, rfl, nofun, fun rules' hsome => ?_⟩
    cases hsome
    exact ⟨hvalid, htext⟩

theorem setCoverType_ok (h : setCoverType input model = .ok model') :
    (model'.id = model.id ∧ model'.rulesJson = model.rulesJson ∧ model'.actionsJson = model.actionsJson) ∧
      (input.coverType = none → model'.coverType = model.coverType) ∧
        ∀ coverType, input.coverType = some coverType → validateCoverType coverType = .ok () ∧ model'.coverType = coverType := by
  unfold setCoverType at h
  cases hin : input.coverType with
  | none =>
    rw [hin] at h
    cases h
    exact ⟨⟨rfl, rfl, rfl⟩, fun _ => rfl, nofun⟩
  | some coverType =>
    rw [hin] at h
    obtain ⟨_, hvalid, h⟩ := bind_ok.1 h
    cases h
    refine ⟨⟨rfl, rfl, rfl⟩, nofun, fun coverType' hsome => ?_⟩
    cases hsome
    exact ⟨hvalid, rfl⟩

theorem setActions_ok {effective : List AlertRuleItem} (h : setActions serde input effective model = .ok model') :
    (model'.id = model.id ∧ model'.rulesJson = model.rulesJson ∧ model'.coverType = model.coverType) ∧
      (input.actions = none → model'.actionsJson = model.actionsJson) ∧
        ∀ actions, input.actions = some actions →
          validateActions effective actions = .ok () ∧ actionsJson serde actions = .ok model'.actionsJson := by
  unfold setActions at h
  cases hin : input.actions with
  | none =>
    rw [hin] at h
    cases h
    exact ⟨⟨rfl, rfl, rfl⟩, fun _ => rfl, nofun⟩
  | some actions =>
    rw [hin] at h
    obtain ⟨_, hvalid, h⟩ := bind_ok.1 h
    obtain ⟨text, htext, h⟩ := bind_ok.1 h
    cases h
    refine ⟨⟨rfl, rfl, rfl⟩, nofun, fun actions' hsome => ?_⟩
    cases hsome
    exact ⟨hvalid, htext⟩

end Stages

/-- each field is written by one stage, and the other two leave it alone -/
theorem UpdateAlertRule.row_spec {input : UpdateAlertRule} (h : input.row serde existing now = .ok row) :
    Written serde input existing row := by
  obtain ⟨⟨effective, m₁⟩, hrules, h⟩ := bind_ok.1 h
  obtain ⟨m₂, hcover, h⟩ := bind_ok.1 h
  obtain ⟨m₃, hactions, h⟩ := bind_ok.1 h
  obtain rfl := Except.ok.inj h
  obtain ⟨⟨hid₁, hcover₁, hactions₁⟩, rfl, hold₁, hnew₁⟩ := setRules_ok hrules
  obtain ⟨⟨hid₂, hrules₂, hactions₂⟩, hold₂, hnew₂⟩ := setCoverType_ok hcover
  obtain ⟨⟨hid₃, hrules₃, hcover₃⟩, hold₃, hnew₃⟩ := setActions_ok hactions
  exact {
    id := hid₃.trans (hid₂.trans hid₁)
    oldRules := fun hno => hrules₃.trans (hrules₂.trans (hold₁ hno))
    newRules := fun rules hsome => ⟨(hnew₁ rules hsome).1, (hrules₃.trans hrules₂) ▸ (hnew₁ rules hsome).2⟩
    oldCoverType := fun hno => hcover₃.trans ((hold₂ hno).trans hcover₁)
    newCoverType := fun coverType hsome => ⟨(hnew₂ coverType hsome).1, hcover₃.trans (hnew₂ coverType hsome).2⟩
    oldActions := fun hno => (hold₃ hno).trans (hactions₂.trans hactions₁)
    newActions := hnew₃ }

/-- the actions that stay are allowed with the rules that come -/
def UpdateAlertRule.Fits (serde : Serde) (input : UpdateAlertRule) (existing : AlertRule) : Prop :=
  match input.rules, input.actions with
  | some rules, none => validateActions rules (existing.actions serde) = .ok ()
  | _, _ => True

/-- the row of an accepted update is valid exactly when the stored actions are allowed with the new rules -/
theorem UpdateAlertRule.row_valid_iff {input : UpdateAlertRule} (hold : existing.Valid serde)
    (h : input.row serde existing now = .ok row) : row.Valid serde ↔ input.Fits serde existing := by
  have hrow := UpdateAlertRule.row_spec h
  have hcover : validateCoverType row.coverType = .ok () := by
    cases hin : input.coverType with
    | none =>
      rw [hrow.oldCoverType hin]
      exact hold.coverType
    | some coverType =>
      obtain ⟨hvalid, heq⟩ := hrow.newCoverType coverType hin
      rw [heq]
      exact hvalid
  have hkept : (row.items serde).map AlertRuleItem.kept =
      (input.rules.getD (existing.items serde)).map AlertRuleItem.kept := by
    cases hin : input.rules with
    | none =>
      unfold AlertRule.items
      rw [hrow.oldRules hin]
      rfl
    | some rules => exact items_kept (hrow.newRules rules hin).2 rfl
  have hitems : validateAlertRuleItems (row.items serde) = .ok () := by
    rw [validateAlertRuleItems_congr hkept]
    cases hin : input.rules with
    | none => exact hold.items
    | some rules => exact (hrow.newRules rules hin).1
  have hactions : validateActions (row.items serde) (row.actions serde) = .ok () ↔ input.Fits serde existing := by
    rw [validateActions_congr hkept]
    unfold UpdateAlertRule.Fits
    cases hin : input.actions with
    | some actions =>
      rw [actions_kept (hrow.newActions actions hin).2 rfl]
      exact iff_of_true (hrow.newActions actions hin).1 (by split <;> trivial)
    | none =>
      have hsame : row.actions serde = existing.actions serde := by
        unfold AlertRule.actions
        rw [hrow.oldActions hin]
      rw [hsame]
      cases input.rules with
      | none => simpa using hold.actions
      | some rules => rfl
  exact ⟨fun h => hactions.1 h.actions, fun h => ⟨hitems, hactions.2 h, hcover⟩⟩

end Rows

/-! ## Events -/

/-- a detected attack, with the evidence of its kind -/
def SecurityEventPayload.IsAttack (payload : SecurityEventPayload) : Prop :=
  match payload.evidence with
  | .sshLogin => False
  | .sshBruteForce _ => payload.eventType = .sshBruteForce
  | .portScan _ => payload.eventType = .portScan

instance (payload : SecurityEventPayload) : Decidable payload.IsAttack := by
  unfold SecurityEventPayload.IsAttack
  split <;> infer_instance

section Events

variable {ipInAnyCidr : String → List String → Bool} {serverId : String} {payload : SecurityEventPayload}

theorem mem_dispatchRuleEffects {stops : AlertRule → Bool} {matched : List AlertRule} {x : Executed}
    (h : x ∈ dispatchRuleEffects serde payload stops matched) :
    x.rule ∈ matched ∧ x.action ∈ x.rule.actions serde ∧ x.payload = payload := by
  induction matched with
  | nil => cases h
  | cons rule matched ih =>
    rw [dispatchRuleEffects, List.mem_append] at h
    rcases h with h | h
    · obtain ⟨action, haction, rfl⟩ := List.mem_map.1 h
      exact ⟨List.mem_cons_self, haction, rfl⟩
    · split_ifs at h
      · cases h
      · obtain ⟨hrule, haction, hpayload⟩ := ih h
        exact ⟨List.mem_cons_of_mem _ hrule, haction, hpayload⟩

theorem eventTypeToRuleType_inj {t t' : SecurityEventType} (h : eventTypeToRuleType t = eventTypeToRuleType t') : t = t' := by
  cases t <;> cases t' <;> first | rfl | exact absurd h (by decide)

/-- a valid rule with an action matches attacks only -/
theorem attack_of_ruleMatches {rule : AlertRule} (hvalid : rule.Valid serde)
    (hmatches : ruleMatches serde ipInAnyCidr serverId payload rule = true) {action : AlertRuleAction}
    (haction : action ∈ rule.actions serde) : payload.IsAttack := by
  unfold ruleMatches at hmatches
  rw [Bool.and_eq_true] at hmatches
  cases hfind : (rule.items serde).find? fun item => SECURITY_RULE_TYPES.contains item.ruleType with
  | none =>
    rw [hfind] at hmatches
    cases hmatches.2
  | some item =>
    rw [hfind] at hmatches
    obtain ⟨-, hmatches⟩ := hmatches
    rw [Bool.and_eq_true, decide_eq_true_eq] at hmatches
    obtain ⟨htype, hparams⟩ := hmatches
    have hsource := source_ip_of_validateActions hvalid.actions haction item (List.mem_of_find?_eq_some hfind)
    unfold SecurityEventPayload.IsAttack
    unfold matchesSecurityParams at hparams
    cases hevidence : payload.evidence with
    | sshLogin =>
      simp only [hevidence, Bool.and_eq_true, decide_eq_true_eq] at hparams
      rw [hparams.1.1.1] at hsource
      exact absurd hsource (by decide)
    | sshBruteForce failedCount =>
      simp only [hevidence, Bool.and_eq_true, decide_eq_true_eq] at hparams
      rw [hparams.1] at htype
      exact eventTypeToRuleType_inj htype.symm
    | portScan distinctPorts =>
      simp only [hevidence, Bool.and_eq_true, decide_eq_true_eq] at hparams
      rw [hparams.1] at htype
      exact eventTypeToRuleType_inj htype.symm

end Events

/-! ## Runs -/

/-- the stored rules pass the validators, and actions were executed for attacks only -/
structure State.Valid (serde : Serde) (s : State) : Prop where
  rules : ∀ rule ∈ s.rules, rule.Valid serde
  executed : ∀ x ∈ s.executed, x.payload.IsAttack

/-- the call, when it is an update of a stored rule, leaves no action that the new rules do not allow -/
def Guarded (serde : Serde) (s : State) : Op → Prop
  | .update _ _ id _ input => ∀ existing, s.rules.get id = some existing → input.Fits serde existing
  | _ => True

/-- what every call and every event is meant to keep -/
structure Kept (serde : Serde) (ipInAnyCidr : String → List String → Bool) (s : State) (op : Op) : Prop where
  valid : (step serde ipInAnyCidr s op).Valid serde
  create_error : ∀ fails id now input e, op = .create fails id now input →
    (create serde fails id now input s.rules).1 = .error e → (step serde ipInAnyCidr s op).rules = s.rules
  update_error : ∀ readFails writeFails id now input e, op = .update readFails writeFails id now input →
    (update serde readFails writeFails id now input s.rules).1 = .error e → (step serde ipInAnyCidr s op).rules = s.rules

section Runs

variable {ipInAnyCidr : String → List String → Bool} {rules : Rules}

/-- `create` is refused and changes nothing, or adds one valid row -/
theorem create_cases (serde : Serde) (fails : Bool) (id : String) (now : ℤ) (input : CreateAlertRule) (rules : Rules) :
    (∃ e, create serde fails id now input rules = (.error e, rules)) ∨
    ∃ row rules', create serde fails id now input rules = (.ok row, rules') ∧ row.Valid serde ∧
      rules.insert row = some rules' := by
  unfold create
  cases hrow : input.row serde id now with
  | error e => exact Or.inl ⟨e, rfl⟩
  | ok row =>
    cases hinsert : (if fails then none else rules.insert row) with
    | none =>
      refine Or.inl ⟨.database, ?_⟩
      simp only [hinsert]
    | some rules' =>
      refine Or.inr ⟨row, rules', ?_, CreateAlertRule.row_valid hrow, ?_⟩
      · simp only [hinsert]
      · split_ifs at hinsert
        exact hinsert

/-- `update` is refused and changes nothing, or replaces the row -/
theorem update_cases (serde : Serde) (readFails writeFails : Bool) (id : String) (now : ℤ) (input : UpdateAlertRule)
    (rules : Rules) :
    (∃ e, update serde readFails writeFails id now input rules = (.error e, rules)) ∨
    ∃ existing row, rules.get id = some existing ∧ input.row serde existing now = .ok row ∧
      update serde readFails writeFails id now input rules = (.ok row, rules.set row) := by
  unfold update
  cases readFails with
  | true => exact Or.inl ⟨_, rfl⟩
  | false =>
    cases hget : rules.get id with
    | none => exact Or.inl ⟨_, rfl⟩
    | some existing =>
      cases hrow : input.row serde existing now with
      | error e =>
        refine Or.inl ⟨e, ?_⟩
        simp [hrow]
      | ok row =>
        cases writeFails with
        | true =>
          refine Or.inl ⟨.database, ?_⟩
          simp [hrow]
        | false =>
          refine Or.inr ⟨existing, row, rfl, hrow, ?_⟩
          simp [hrow]

theorem step_valid {s : State} {op : Op} (hs : s.Valid serde) (hguard : Guarded serde s op) :
    (step serde ipInAnyCidr s op).Valid serde := by
  cases op with
  | create fails id now input =>
    refine ⟨fun rule hrule => ?_, hs.executed⟩
    simp only [step] at hrule
    rcases create_cases serde fails id now input s.rules with ⟨e, heq⟩ | ⟨row, rules', heq, hrow, hinsert⟩
    · rw [heq] at hrule
      exact hs.rules rule hrule
    · rw [heq] at hrule
      rcases (Table.mem_insert hinsert).1 hrule with hold | rfl
      · exact hs.rules rule hold
      · exact hrow
  | update readFails writeFails id now input =>
    refine ⟨fun rule hrule => ?_, hs.executed⟩
    simp only [step] at hrule
    rcases update_cases serde readFails writeFails id now input s.rules with ⟨e, heq⟩ | ⟨existing, row, hget, hrow, heq⟩
    · rw [heq] at hrule
      exact hs.rules rule hrule
    · rw [heq] at hrule
      have hold := hs.rules existing (Table.get_eq_some.1 hget).1
      rcases Table.mem_set hrule with rfl | hrule
      · exact (UpdateAlertRule.row_valid_iff hold hrow).2 (hguard existing hget)
      · exact hs.rules rule hrule
  | event serverId payload inMaintenance stops =>
    refine ⟨hs.rules, fun x hx => ?_⟩
    rcases List.mem_append.1 hx with hx | hx
    · exact hs.executed x hx
    · obtain ⟨hrule, haction, hpayload⟩ := mem_dispatchRuleEffects hx
      unfold evaluateRules at hrule
      split_ifs at hrule
      · cases hrule
      · obtain ⟨hstored, hmatches⟩ := List.mem_filter.1 hrule
        rw [hpayload]
        exact attack_of_ruleMatches (hs.rules x.rule hstored) hmatches haction

theorem step_kept {s : State} {op : Op} (hs : s.Valid serde) (hguard : Guarded serde s op) :
    Kept serde ipInAnyCidr s op := by
  constructor
  · exact step_valid hs hguard
  · rintro fails id now input e rfl herr
    simp only [step]
    rcases create_cases serde fails id now input s.rules with ⟨e', heq⟩ | ⟨row, rules', heq, -, -⟩
    · rw [heq]
    · rw [heq] at herr
      cases herr
  · rintro readFails writeFails id now input e rfl herr
    simp only [step]
    rcases update_cases serde readFails writeFails id now input s.rules with ⟨e', heq⟩ | ⟨existing, row, -, -, heq⟩
    · rw [heq]
    · rw [heq] at herr
      cases herr

/-- **Stored rules.** From valid rules, a run in which no update of the rules alone leaves an action that they do not allow
keeps every stored rule valid, executes actions for attacks only, and changes nothing in a call that returns an error -/
theorem stored_rules_stay_valid (serde : Serde) (ipInAnyCidr : String → List String → Bool) {s : State} (hs : s.Valid serde)
    {ops : List Op} (hguard : Along (step serde ipInAnyCidr) (Guarded serde) s ops) :
    Along (step serde ipInAnyCidr) (Kept serde ipInAnyCidr) s ops :=
  Along.of_invariant (I := State.Valid serde) (fun _ _ => step_valid) (fun _ _ => step_kept) hs hguard

end Runs

/-! ## A rule that changes under its action -/

/-- the texts of some values -/
def Format.ofPairs {α κ : Type} [DecidableEq α] (kept : α → κ) (pairs : List (α × String))
    (h : ∀ p ∈ pairs, ((pairs.find? fun q => q.2 = p.2).map fun q => kept q.1) = some (kept p.1)) : Format α kept where
  encode value :=
    match pairs.find? fun p => p.1 = value with
    | some p => .ok p.2
    | none => .error "unknown value"
  decode text := (pairs.find? fun p => p.2 = text).map Prod.fst
  decode_encode value text henc := by
    cases hfind : pairs.find? fun p => p.1 = value with
    | none =>
      rw [hfind] at henc
      cases henc
    | some p =>
      rw [hfind] at henc
      obtain rfl := Except.ok.inj henc
      have hvalue : p.1 = value := by simpa using List.find?_some hfind
      rw [Option.map_map, ← hvalue]
      exact h p (List.mem_of_find?_eq_some hfind)

def item (ruleType : String) : AlertRuleItem := ⟨ruleType, none, none, none, none, none, none⟩

def blockAll : AlertRuleAction := .blockSourceIp "all" none none

def itemText (ruleType : String) : String :=
  "[\x7b\"rule_type\":\"" ++ ruleType ++
    "\",\"min\":null,\"max\":null,\"duration\":null,\"cycle_interval\":null,\"cycle_limit\":null\x7d]"

def someJson : Serde where
  items := .ofPairs _
    [([item "ssh_brute_force_detected"], itemText "ssh_brute_force_detected"),
      ([item "ssh_new_ip_login"], itemText "ssh_new_ip_login")] (by decide +kernel)
  actions := .ofPairs _ [([blockAll], "[\x7b\"type\":\"block_source_ip\",\"cover_type\":\"all\"\x7d]")] (by decide +kernel)
  serverIds := .ofPairs _ [([], "[]")] (by decide)

def noRules : State := ⟨∅, []⟩

def bruteForceRule : CreateAlertRule where
  name := "ssh"
  rules := [item "ssh_brute_force_detected"]
  notificationGroupId := none
  serverIds := none
  actions := [blockAll]

def rulesOnly (ruleType : String) : UpdateAlertRule := ⟨none, some [item ruleType], none, none, none, none, none, none⟩

def login : SecurityEventPayload := ⟨.sshLogin, "203.0.113.5", some "admin", true, .sshLogin⟩

theorem noRules_valid (serde : Serde) : noRules.Valid serde where
  rules rule h := absurd h (Table.not_mem_empty rule)
  executed _ h := absurd h List.not_mem_nil

theorem stored_rules_stay_valid_once :
    Along (step someJson fun _ _ => false) (Kept someJson fun _ _ => false) noRules
      [.create false "r1" 0 bruteForceRule, .update false false "r1" 1 (rulesOnly "ssh_brute_force_detected")] := by
  refine stored_rules_stay_valid someJson _ (noRules_valid _) ⟨trivial, fun existing hget => ?_, trivial⟩
  have hstored : (runs (step someJson fun _ _ => false) noRules [.create false "r1" 0 bruteForceRule]).rules.get "r1" =
      some existing := hget
  have hactions : (existing.actions someJson) = [blockAll] := by
    have hrow : ((runs (step someJson fun _ _ => false) noRules [.create false "r1" 0 bruteForceRule]).rules.get "r1").map
        (AlertRule.actions someJson) = some [blockAll] := by decide +kernel
    rw [hstored] at hrow
    exact Option.some.inj hrow
  show validateActions [item "ssh_brute_force_detected"] (existing.actions someJson) = .ok ()
  rw [hactions]
  decide +kernel

/-- the rule is created for brute force with a block action; its rules alone become "new login", and a login is blocked -/
theorem login_blocked :
    ((runs (step someJson fun _ _ => false) noRules
      [.create false "r1" 0 bruteForceRule, .update false false "r1" 1 (rulesOnly "ssh_new_ip_login"),
        .event "s1" login false fun _ => false]).executed.map fun x => (x.rule.id, x.action, x.payload)) =
        [("r1", blockAll, login)] ∧
      ¬ Along (step someJson fun _ _ => false) (Kept someJson fun _ _ => false) noRules
        [.create false "r1" 0 bruteForceRule, .update false false "r1" 1 (rulesOnly "ssh_new_ip_login"),
          .event "s1" login false fun _ => false] := by
  have hexecuted : ((runs (step someJson fun _ _ => false) noRules
      [.create false "r1" 0 bruteForceRule, .update false false "r1" 1 (rulesOnly "ssh_new_ip_login"),
        .event "s1" login false fun _ => false]).executed.map fun x => (x.rule.id, x.action, x.payload)) =
        [("r1", blockAll, login)] := by decide +kernel
  refine ⟨hexecuted, fun h => ?_⟩
  obtain ⟨-, -, hlast, -⟩ := h
  obtain ⟨x, hx, heq⟩ := List.mem_map.1 (hexecuted ▸ List.mem_singleton_self ("r1", blockAll, login))
  have hattack := hlast.valid.executed x hx
  have hpayload : x.payload = login := congrArg (fun p => p.2.2) heq
  rw [hpayload] at hattack
  exact hattack

end ServerBee.AlertRules
