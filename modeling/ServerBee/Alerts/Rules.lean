/-
Alert rules as they are stored, edited and obeyed (`service/alert.rs`: `validate_alert_rule_items`, `validate_actions`,
`create`, `update`; `service/security.rs`: `evaluate_rules`, `dispatch_rule_effects`).

A rule is a row whose items, server ids and actions are JSON texts. `Serde` is what the code needs of the JSON library: a
value that was encoded decodes, to the same action or server id, and to an item with the same type and parameters (a
threshold need not survive: a number that is not finite becomes `null`). A database statement can fail before it changes
a row. Of the evaluation of an event only the choice of the rules and the actions that it executes are here: the alert
states that it writes are in `Alerts.Admission`. A rule's trigger tasks are not read here.
-/
import ServerBee.Lib.Except
import ServerBee.Lib.Run
import ServerBee.Lib.Table

namespace ServerBee.AlertRules

open ServerBee.Lib

/-! ## Items and actions -/

inductive AppError where
  | badRequest (message : String)
  | validation (message : String)
  | notFound (message : String)
  | database
deriving DecidableEq, Repr

def SECURITY_RULE_TYPES : List String := ["ssh_brute_force_detected", "ssh_new_ip_login", "port_scan_detected"]

def SOURCE_IP_RULE_TYPES : List String := ["ssh_brute_force_detected", "port_scan_detected"]

def VALID_COVER_TYPES : List String := ["all", "include", "exclude"]

structure SecurityRuleParams where
  minFailedCount : Option UInt32
  minDistinctPorts : Option UInt32
  excludeUsers : List String
  excludeCidrs : List String
  dedupeWindowSeconds : UInt32
deriving DecidableEq, Repr

def SecurityRuleParams.default : SecurityRuleParams := ⟨none, none, [], [], 600⟩

/-- the thresholds are `f64`, given by their bits -/
structure AlertRuleItem where
  ruleType : String
  min : Option (BitVec 64)
  max : Option (BitVec 64)
  duration : Option UInt32
  cycleInterval : Option String
  cycleLimit : Option Int64
  security : Option SecurityRuleParams
deriving DecidableEq, Repr

inductive AlertRuleAction where
  | blockSourceIp (coverType : String) (serverIdsJson comment : Option String)
deriving DecidableEq, Repr

def validateAlertRuleItems (items : List AlertRuleItem) : Except AppError Unit :=
  let securityCount := (items.filter fun i => SECURITY_RULE_TYPES.contains i.ruleType).length
  let nonSecurityCount := items.length - securityCount
  if securityCount > 0 ∧ nonSecurityCount > 0 then
    .error (.badRequest "cannot mix security rule types with other items")
  else if securityCount > 1 then .error (.badRequest "only one security item per alert_rule is supported")
  else .ok ()

def validateAction (rules : List AlertRuleItem) : AlertRuleAction → Except AppError Unit
  | .blockSourceIp coverType _ _ =>
    if VALID_COVER_TYPES.contains coverType = false then
      .error (.validation ("invalid cover_type '" ++ coverType ++ "' on action"))
    else if rules.isEmpty ∨ (rules.all fun r => SOURCE_IP_RULE_TYPES.contains r.ruleType) = false then
      .error (.validation
        "block_source_ip is only allowed on ssh_brute_force_detected / port_scan_detected rules")
    else .ok ()

def validateActions (rules : List AlertRuleItem) (actions : List AlertRuleAction) : Except AppError Unit :=
  if actions.isEmpty then .ok ()
  else if actions.length > 1 then .error (.validation "at most one action per alert_rule")
  else actions.forM (validateAction rules)

def validateCoverType (coverType : String) : Except AppError Unit :=
  if VALID_COVER_TYPES.contains coverType then .ok ()
  else
    .error (.validation ("Invalid cover_type '" ++ coverType ++ "': must be one of 'all', 'include', 'exclude'"))

/-! ## JSON texts -/

/-- a text format for values, of which at least the part `kept` survives -/
structure Format (α : Type) {κ : Type} (kept : α → κ) where
  encode : α → Except String String
  decode : String → Option α
  decode_encode : ∀ value text, encode value = .ok text → (decode text).map kept = some (kept value)

/-- the part of an item that survives -/
def AlertRuleItem.kept (i : AlertRuleItem) : String × Option SecurityRuleParams := (i.ruleType, i.security)

structure Serde where
  items : Format (List AlertRuleItem) (List.map AlertRuleItem.kept)
  actions : Format (List AlertRuleAction) id
  serverIds : Format (List String) id

/-! ## Rules -/

structure AlertRule where
  id : String
  name : String
  enabled : Bool
  rulesJson : String
  triggerMode : String
  notificationGroupId : Option String
  coverType : String
  serverIdsJson : Option String
  actionsJson : Option String
  createdAt : ℤ
  updatedAt : ℤ
deriving DecidableEq, Repr

abbrev Rules := Table AlertRule.id

/-- `serde_json::from_str(&rule.rules_json).unwrap_or_default()` -/
def AlertRule.items (serde : Serde) (rule : AlertRule) : List AlertRuleItem := (serde.items.decode rule.rulesJson).getD []

def AlertRule.actions (serde : Serde) (rule : AlertRule) : List AlertRuleAction :=
  (rule.actionsJson.bind serde.actions.decode).getD []

structure CreateAlertRule where
  name : String
  rules : List AlertRuleItem
  triggerMode : String := "always"
  notificationGroupId : Option String
  coverType : String := "all"
  serverIds : Option (List String)
  enabled : Bool := true
  actions : List AlertRuleAction
deriving DecidableEq, Repr

structure UpdateAlertRule where
  name : Option String
  rules : Option (List AlertRuleItem)
  triggerMode : Option String
  notificationGroupId : Option (Option String)
  coverType : Option String
  serverIds : Option (Option (List String))
  enabled : Option Bool
  actions : Option (List AlertRuleAction)
deriving DecidableEq, Repr

variable (serde : Serde)

def rulesJson (rules : List AlertRuleItem) : Except AppError String :=
  (serde.items.encode rules).mapError fun e => .validation ("Invalid rules: " ++ e)

def serverIdsJson (ids : Option (List String)) : Option String :=
  ids.map fun ids => ((serde.serverIds.encode ids).toOption).getD "[]"

def actionsJson (actions : List AlertRuleAction) : Except AppError (Option String) :=
  if actions.isEmpty then .ok none
  else ((serde.actions.encode actions).mapError fun e => .validation ("Invalid actions: " ++ e)).map some

/-- the row that `create` inserts -/
def CreateAlertRule.row (input : CreateAlertRule) (id : String) (now : ℤ) : Except AppError AlertRule := do
  validateCoverType input.coverType
  validateAlertRuleItems input.rules
  validateActions input.rules input.actions
  let rules ← rulesJson serde input.rules
  let actions ← actionsJson serde input.actions
  pure {
    id, name := input.name, enabled := input.enabled, rulesJson := rules, triggerMode := input.triggerMode
    notificationGroupId := input.notificationGroupId, coverType := input.coverType
    serverIdsJson := serverIdsJson serde input.serverIds, actionsJson := actions, createdAt := now, updatedAt := now }

/-- `create`: the id is drawn by the caller; the insert is refused when it `fails` or the id is taken -/
def create (fails : Bool) (id : String) (now : ℤ) (input : CreateAlertRule) (rules : Rules) :
    Except AppError AlertRule × Rules :=
  match input.row serde id now with
  | .error e => (.error e, rules)
  | .ok row =>
    match if fails then none else rules.insert row with
    | none => (.error .database, rules)
    | some rules' => (.ok row, rules')

/-- the `rules` field of an update -/
def setRules (input : UpdateAlertRule) (existing : List AlertRuleItem) (model : AlertRule) :
    Except AppError (List AlertRuleItem × AlertRule) :=
  match input.rules with
  | none => .ok (existing, model)
  | some rules => do
    validateAlertRuleItems rules
    let text ← rulesJson serde rules
    pure (rules, { model with rulesJson := text })

def setCoverType (input : UpdateAlertRule) (model : AlertRule) : Except AppError AlertRule :=
  match input.coverType with
  | none => .ok model
  | some coverType => do
    validateCoverType coverType
    pure { model with coverType }

/-- the `actions` field of an update -/
def setActions (input : UpdateAlertRule) (effectiveRules : List AlertRuleItem) (model : AlertRule) :
    Except AppError AlertRule :=
  match input.actions with
  | none => .ok model
  | some actions => do
    validateActions effectiveRules actions
    let text ← actionsJson serde actions
    pure { model with actionsJson := text }

/-- the row that `update` writes -/
def UpdateAlertRule.row (input : UpdateAlertRule) (existing : AlertRule) (now : ℤ) : Except AppError AlertRule := do
  let model := { existing with name := input.name.getD existing.name }
  let (effectiveRules, model) ← setRules serde input (existing.items serde) model
  let model := { model with
    triggerMode := input.triggerMode.getD model.triggerMode
    notificationGroupId := input.notificationGroupId.getD model.notificationGroupId }
  let model ← setCoverType input model
  let model := { model with
    serverIdsJson := (input.serverIds.map (serverIdsJson serde)).getD model.serverIdsJson
    enabled := input.enabled.getD model.enabled }
  let model ← setActions serde input effectiveRules model
  pure { model with updatedAt := now }

/-- `update`: the statements that fail are given, the read and the write -/
def update (readFails writeFails : Bool) (id : String) (now : ℤ) (input : UpdateAlertRule) (rules : Rules) :
    Except AppError AlertRule × Rules :=
  if readFails then (.error .database, rules)
  else
    match rules.get id with
    | none => (.error (.notFound ("Alert rule " ++ id ++ " not found")), rules)
    | some existing =>
      match input.row serde existing now with
      | .error e => (.error e, rules)
      | .ok row => if writeFails then (.error .database, rules) else (.ok row, rules.set row)

/-! ## Events -/

inductive SecurityEventType where
  | sshLogin
  | sshBruteForce
  | portScan
deriving DecidableEq, Repr

inductive SecurityEvidence where
  | sshLogin
  | sshBruteForce (failedCount : UInt32)
  | portScan (distinctPorts : UInt32)
deriving DecidableEq, Repr

structure SecurityEventPayload where
  eventType : SecurityEventType
  sourceIp : String
  username : Option String
  firstSeen : Bool
  evidence : SecurityEvidence
deriving DecidableEq, Repr

def eventTypeToRuleType : SecurityEventType → String
  | .sshLogin => "ssh_new_ip_login"
  | .sshBruteForce => "ssh_brute_force_detected"
  | .portScan => "port_scan_detected"

def ruleCoversServer (coverType : String) (serverIdsJson : Option String) (serverId : String) : Bool :=
  let ids := (serverIdsJson.bind serde.serverIds.decode).getD []
  if coverType = "include" then ids.contains serverId
  else if coverType = "exclude" then !ids.contains serverId
  else true

def eqIgnoreAsciiCase (a b : String) : Bool := a.toList.map Char.toLower = b.toList.map Char.toLower

/-- `ipInAnyCidr` parses addresses and networks -/
def matchesSecurityParams (ipInAnyCidr : String → List String → Bool) (item : AlertRuleItem) (params : SecurityRuleParams)
    (payload : SecurityEventPayload) : Bool :=
  match payload.evidence with
  | .sshBruteForce failedCount =>
    item.ruleType = "ssh_brute_force_detected" && (params.minFailedCount.map fun min => decide (failedCount ≥ min)).getD true
  | .portScan distinctPorts =>
    item.ruleType = "port_scan_detected" && (params.minDistinctPorts.map fun min => decide (distinctPorts ≥ min)).getD true
  | .sshLogin =>
    item.ruleType = "ssh_new_ip_login" && payload.firstSeen &&
      !(payload.username.any fun username => params.excludeUsers.any fun u => eqIgnoreAsciiCase u username) &&
      !ipInAnyCidr payload.sourceIp params.excludeCidrs

def ruleMatches (ipInAnyCidr : String → List String → Bool) (serverId : String) (payload : SecurityEventPayload)
    (rule : AlertRule) : Bool :=
  rule.enabled && ruleCoversServer serde rule.coverType rule.serverIdsJson serverId &&
    match (rule.items serde).find? fun item => SECURITY_RULE_TYPES.contains item.ruleType with
    | none => false
    | some item =>
      item.ruleType = eventTypeToRuleType payload.eventType &&
        matchesSecurityParams ipInAnyCidr item (item.security.getD .default) payload

/-- the rules that an event matches -/
def evaluateRules (ipInAnyCidr : String → List String → Bool) (serverId : String) (payload : SecurityEventPayload)
    (inMaintenance : Bool) (rules : Rules) : List AlertRule :=
  if inMaintenance then [] else rules.rows.filter (ruleMatches serde ipInAnyCidr serverId payload)

/-- an action that was executed for an event -/
structure Executed where
  rule : AlertRule
  action : AlertRuleAction
  payload : SecurityEventPayload
deriving DecidableEq, Repr

/-- `dispatch_rule_effects`: `stops` are the rules whose notification ends the loop, because the server is not read -/
def dispatchRuleEffects (payload : SecurityEventPayload) (stops : AlertRule → Bool) : List AlertRule → List Executed
  | [] => []
  | rule :: matched =>
    ((rule.actions serde).map fun action => ⟨rule, action, payload⟩) ++
      if stops rule then [] else dispatchRuleEffects payload stops matched

/-! ## Runs -/

structure State where
  rules : Rules
  executed : List Executed

inductive Op where
  | create (fails : Bool) (id : String) (now : ℤ) (input : CreateAlertRule)
  | update (readFails writeFails : Bool) (id : String) (now : ℤ) (input : UpdateAlertRule)
  /-- an event that is admitted, with the rules whose notification ends the dispatch -/
  | event (serverId : String) (payload : SecurityEventPayload) (inMaintenance : Bool) (stops : AlertRule → Bool)

def step (ipInAnyCidr : String → List String → Bool) (s : State) : Op → State
  | .create fails id now input => { s with rules := (create serde fails id now input s.rules).2 }
  | .update readFails writeFails id now input =>
    { s with rules := (update serde readFails writeFails id now input s.rules).2 }
  | .event serverId payload inMaintenance stops =>
    { s with
      executed := s.executed ++
        dispatchRuleEffects serde payload stops (evaluateRules serde ipInAnyCidr serverId payload inMaintenance s.rules) }

end ServerBee.AlertRules
