/-
Renewal reminders (`service/renewal_reminders.rs`, and the parts of `service/server.rs` and `service/renewal.rs` that
share its tables).

Every operation is one transaction on one database: `evaluate` of a rule on a server, the catch-up of a server, an edit
of a server with the adoption of its legacy alert states, and general alert admission. `none` is an error, after which
nothing is changed. An operation draws the ids it needs from `ids` on; they are arbitrary. What `mobile_alert_push`
enqueues is a function chosen anew for each call, and `commits` says that every statement and the commit succeed.
-/
import ServerBee.Alerts.Admission
import ServerBee.Renewal.Model

namespace ServerBee.Reminders

open ServerBee.Lib ServerBee.Alerts ServerBee.Renewal

/-! ## Tables -/

structure Maintenance where
  id : ℕ
  active : Bool
  startAt : ℤ
  endAt : ℤ
  /-- `none`: every server -/
  serverIds : Option (List ℕ)
deriving DecidableEq, Repr

structure Db (J : Type) where
  servers : Table Renewal.Server.id
  rules : Table AlertRule.id
  maintenances : List Maintenance
  states : States
  jobs : J

def isInMaintenanceAt (maintenances : List Maintenance) (serverId : ℕ) (now : ℤ) : Bool :=
  maintenances.any fun m => m.active && decide (m.startAt ≤ now) && decide (now ≤ m.endAt) &&
    m.serverIds.all fun ids => ids.isEmpty || ids.contains serverId

def ruleCoversServer (rule : AlertRule) (serverId : ℕ) : Bool :=
  if rule.coverType = "include" then rule.serverIds.contains serverId
  else if rule.coverType = "exclude" then !rule.serverIds.contains serverId
  else true

/-! ## Evaluation -/

inductive Outcome where
  | silent
  | triggered
  | resolved
  | superseded
deriving DecidableEq, Repr

/-- a committed evaluation: the rows are published to the evaluator's cache after the commit; no outcome leaves the
server to the general path -/
structure Evaluated (J : Type) where
  db : Db J
  published : List AlertState
  outcome : Option Outcome

section Evaluate

variable {J : Type}

/-- the rule as it stands, if it still covers the server and is what the caller's conditions were computed from -/
def currentRule (db : Db J) (snapshot : AlertRule) (serverId : ℕ) : Option AlertRule :=
  (db.rules.get snapshot.id).filter fun current =>
    current.enabled && ruleCoversServer current serverId && current.rulesJson == snapshot.rulesJson &&
      current.notificationGroupId == snapshot.notificationGroupId && current.name == snapshot.name

/-- the other conditions hold, and every expiration item of the rule is due -/
def isMatched (C : Crates) (model : Renewal.Server) (items : List AlertRuleItem) (otherConditions : Bool) (now : ℤ) :
    Bool :=
  let timezone := (RenewalState.fromServer model).billingTimezone
  otherConditions && (items.filter fun item => item.ruleType == "expiration").all fun item =>
    match selectedDate C model.expiredAt timezone, selectedDate C (some now) timezone with
    | some date, some today => decide (date.dayNumber - today.dayNumber ≤ item.duration.getD 7)
    | _, _ => false

/-- the unresolved reminders of the rule and the server -/
def isOpenReminder (ruleId serverId : ℕ) (r : AlertState) : Bool :=
  r.ruleId == ruleId && r.serverId == serverId && r.eventKey.isRenewal && !r.resolved

/-- those of other occurrences -/
def isOther (ruleId serverId occurrence : ℕ) (r : AlertState) : Bool :=
  isOpenReminder ruleId serverId r && r.eventKey != .renewal occurrence

def closeRow (resolvedAt : Option ℤ) (now : ℤ) (r : AlertState) : AlertState :=
  { r with resolved := true, resolvedAt := resolvedAt, updatedAt := now }

/-- the rows that `p` selects, closed: the table and the rows -/
def closeRows (states : States) (p : AlertState → Bool) (resolvedAt : Option ℤ) (now : ℤ) : States × List AlertState :=
  (states.update p (closeRow resolvedAt now) fun _ _ => rfl, (states.rows.filter p).map (closeRow resolvedAt now))

def enqueueAll (enqueue : AlertRule → AlertState → J → Option J) (rule : AlertRule) (rows : List AlertState) (jobs : J) :
    Option J := rows.foldlM (fun jobs row => enqueue rule row jobs) jobs

/-- a server without an occurrence: a cleared date recovers the reminders that are still open -/
def recoverCleared (enqueue : AlertRule → AlertState → J → Option J) (db : Db J) (rule : AlertRule)
    (model : Renewal.Server) (now : ℤ) : Option (Evaluated J) :=
  if model.expiredAt.isNone then
    let (states, recovered) := closeRows db.states (isOpenReminder rule.id model.id) (some now) now
    (enqueueAll enqueue rule recovered db.jobs).map fun jobs =>
      ⟨{ db with states := states, jobs := jobs }, recovered, if recovered.isEmpty then none else some .resolved⟩
  else some ⟨db, [], none⟩

/-- the row of a reminder that is sent at `now` -/
def firedRow (ruleId serverId occurrence : ℕ) (existing : Option AlertState) (now : ℤ) : AlertState :=
  match existing with
  | some previous =>
    { previous with
      firstTriggeredAt := if previous.resolved then now else previous.firstTriggeredAt
      lastNotifiedAt := now
      count := if previous.resolved then 1 else saturatingAdd previous.count 1
      resolved := false
      resolvedAt := none
      updatedAt := now }
  | none => ⟨ruleId, serverId, .renewal occurrence, now, now, 1, false, none, now⟩

def evaluateOccurrence (C : Crates) (enqueue : AlertRule → AlertState → J → Option J) (db : Db J) (rule : AlertRule)
    (items : List AlertRuleItem) (model : Renewal.Server) (occurrence : ℕ) (otherConditions : Bool) (now : ℤ) :
    Option (Evaluated J) :=
  let key : StateKey := (rule.id, model.id, .renewal occurrence)
  let matched := isMatched C model items otherConditions now
  let manualRecovery := (RenewalState.fromServer model).deadlineOrigin == .confirmed && !matched
  -- superseded rows keep their cycle; only a manual recovery gives them a time
  let (states, archived) := closeRows db.states (isOther rule.id model.id occurrence)
    (if manualRecovery then some now else none) now
  match if manualRecovery then enqueueAll enqueue rule archived db.jobs else some db.jobs with
  | none => none
  | some jobs =>
    let existing := states.get key
    let lapsed := (existing.filter fun state => !matched && !state.resolved).map (closeRow (some now) now)
    let recovered := (manualRecovery && !archived.isEmpty) || lapsed.isSome
    let states := lapsed.elim states states.set
    match enqueueAll enqueue rule lapsed.toList jobs with
    | none => none
    | some jobs =>
      let archived := archived ++ lapsed.toList
      let quiet := if archived.isEmpty then Outcome.silent else Outcome.superseded
      let stored : Db J := { db with states := states, jobs := jobs }
      if !matched || isInMaintenanceAt db.maintenances model.id now then
        some ⟨stored, archived, some (if recovered then .resolved else quiet)⟩
      else if existing.all fun state =>
          rule.triggerMode != "once" && (state.resolved || decide (fiveMinutes ≤ now - state.lastNotifiedAt)) then
        let row := firedRow rule.id model.id occurrence existing now
        match storeState states existing row, enqueue rule row jobs with
        | some states, some jobs =>
          some ⟨{ db with states := states, jobs := jobs }, archived ++ [row], some .triggered⟩
        | _, _ => none
      else some ⟨stored, archived ++ existing.toList, some quiet⟩

def evaluate (C : Crates) (ids : ℕ) (enqueue : AlertRule → AlertState → J → Option J) (commits : Bool) (db : Db J)
    (snapshot : AlertRule) (serverId : ℕ) (otherConditions : Bool) (now : ℤ) : Option (Evaluated J) :=
  match db.servers.get serverId with
  | none => none
  | some before =>
    match advanceLocked C ids before now with
    | .error _ => none
    | .ok (model, _) =>
      let db := { db with servers := db.servers.set model }
      let result :=
        match currentRule db snapshot serverId, (RenewalState.fromServer model).occurrenceId with
        | none, _ => some ⟨db, [], some .silent⟩
        | some rule, none => recoverCleared enqueue db rule model now
        | some rule, some occurrence =>
          evaluateOccurrence C enqueue db rule snapshot.items model occurrence otherConditions now
      if commits then result else none

/-! ## Catch-up and edits -/

/-- one server of `advance_all` -/
def advanceServer (C : Crates) (ids : ℕ) (commits : Bool) (db : Db J) (serverId : ℕ) (now : ℤ) : Option (Db J) :=
  match db.servers.get serverId with
  | none => none
  | some model =>
    match advanceLocked C ids model now with
    | .error _ => none
    | .ok (model, _) => if commits then some { db with servers := db.servers.set model } else none

/-- a general alert row that stands for a reminder of the server -/
def isAdoptable (db : Db J) (serverId : ℕ) (r : AlertState) : Bool :=
  r.serverId == serverId && r.eventKey == .general && (db.rules.get r.ruleId).any fun rule =>
    (rule.triggerMode == "once" || rule.triggerMode == "always") && !rule.items.isEmpty &&
      rule.items.all fun item => item.ruleType == "expiration"

def adoptRow (occurrence : ℕ) (r : AlertState) : AlertState := { r with eventKey := .renewal occurrence }

def adoptLegacyOccurrence (C : Crates) (db : Db J) (model : Renewal.Server) (selected : RenewalState)
    (deadline : Option ℤ) : Option (States × List AlertState) :=
  match selected.occurrenceId with
  | none => some (db.states, [])
  | some occurrence =>
    let previous := RenewalState.fromServer model
    let oldDate := selectedDate C model.expiredAt previous.billingTimezone
    let newDate := selectedDate C deadline selected.billingTimezone
    if previous.occurrenceId.isSome || previous.enabled || oldDate.isNone || oldDate != newDate then
      some (db.states, [])
    else
      (db.states.remap fun r => if isAdoptable db model.id r then adoptRow occurrence r else r).map fun states =>
        (states, (db.states.rows.filter (isAdoptable db model.id)).map (adoptRow occurrence))

structure UpdateServerInput where
  renewal : Option RenewalInput
  expiredAt : Option (Option ℤ)
  billingCycle : Option (Option String)
deriving DecidableEq, Repr

def validateUpdateInput (input : UpdateServerInput) : Bool :=
  match input.billingCycle with
  | some (some cycle) => (Cycle.parse cycle).isSome
  | _ => true

def updateServer (C : Crates) (ids : ℕ) (commits : Bool) (db : Db J) (serverId : ℕ) (input : UpdateServerInput)
    (now : ℤ) : Option (Db J × List AlertState) :=
  if validateUpdateInput input = false then none
  else
    match db.servers.get serverId with
    | none => none
    | some model =>
      match applyEdit C ids model input.renewal input.expiredAt (input.billingCycle.getD model.billingCycle) now with
      | .error _ => none
      | .ok (renewal, deadline) =>
        match adoptLegacyOccurrence C db model renewal deadline with
        | none => none
        | some (states, adopted) =>
          let updated : Renewal.Server := { model with
            renewalState := some renewal
            expiredAt := deadline
            billingCycle := input.billingCycle.getD model.billingCycle }
          if commits then some ({ db with servers := db.servers.set updated, states := states }, adopted) else none

def publishAdoptedRenewal (cache : Cache) (state : AlertState) : Cache :=
  publishState (Function.update cache (state.ruleId, state.serverId, .general) none) state

end Evaluate

/-! ## The machine -/

/-- `triggered` and `adopted` are histories: the occurrences for which `evaluate` answered `triggered`, and the rows that
an edit adopted -/
structure St (J : Type) where
  db : Db J
  caches : ℕ → Cache
  triggered : List StateKey
  adopted : List StateKey

def St.init {J : Type} (jobs : J) : St J := ⟨⟨∅, ∅, [], ∅, jobs⟩, fun _ _ => none, [], []⟩

structure Call (J : Type) where
  evaluator : ℕ
  snapshot : AlertRule
  serverId : ℕ
  otherConditions : Bool
  now : ℤ
  ids : ℕ
  enqueue : AlertRule → AlertState → J → Option J
  commits : Bool

inductive Op (J : Type) where
  | addServer (model : Renewal.Server)
  | addRule (rule : AlertRule)
  /-- any edit of a rule that keeps its trigger mode -/
  | editRule (rule : AlertRule)
  | maintenance (maintenances : List Maintenance)
  | evaluate (call : Call J)
  | advance (serverId : ℕ) (now : ℤ) (ids : ℕ) (commits : Bool)
  | update (evaluator : Option ℕ) (serverId : ℕ) (input : UpdateServerInput) (now : ℤ) (ids : ℕ) (commits : Bool)
  /-- general admission, by the evaluator and at the instant given -/
  | admission (evaluator : ℕ) (rule : AlertRule) (serverId : ℕ) (resolved : Bool) (now : ℤ)
      (enqueue : AlertState → J → Option J) (commits : Bool)
  | restart (evaluator : ℕ)

section Machine

variable {J : Type} (C : Crates)

def St.evaluate (s : St J) (call : Call J) : Option (Evaluated J) :=
  Reminders.evaluate C call.ids call.enqueue call.commits s.db call.snapshot call.serverId call.otherConditions call.now

/-- the occurrence of a server -/
def Db.occurrence (db : Db J) (serverId : ℕ) : Option ℕ :=
  (db.servers.get serverId).bind fun model => (RenewalState.fromServer model).occurrenceId

/-- the occurrence that an evaluation answered `triggered` for -/
def Evaluated.entry (e : Evaluated J) (ruleId serverId : ℕ) : List StateKey :=
  match e.outcome, e.db.occurrence serverId with
  | some .triggered, some occurrence => [(ruleId, serverId, .renewal occurrence)]
  | _, _ => []

def step (s : St J) : Op J → St J
  | .addServer model =>
    match s.db.servers.insert model with
    | none => s
    | some servers => { s with db := { s.db with servers := servers } }
  | .addRule rule =>
    match s.db.rules.insert rule with
    | none => s
    | some rules => { s with db := { s.db with rules := rules } }
  | .editRule rule =>
    if (s.db.rules.get rule.id).any fun previous => previous.triggerMode == rule.triggerMode then
      { s with db := { s.db with rules := s.db.rules.set rule } }
    else s
  | .maintenance maintenances => { s with db := { s.db with maintenances := maintenances } }
  | .evaluate call =>
    match s.evaluate C call with
    | none => s
    | some e =>
      { s with
        db := e.db
        caches := Function.update s.caches call.evaluator (e.published.foldl publishState (s.caches call.evaluator))
        triggered := s.triggered ++ e.entry call.snapshot.id call.serverId }
  | .advance serverId now ids commits =>
    match advanceServer C ids commits s.db serverId now with
    | none => s
    | some db => { s with db := db }
  | .update evaluator serverId input now ids commits =>
    match updateServer C ids commits s.db serverId input now with
    | none => s
    | some (db, adopted) =>
      { s with
        db := db
        caches := fun e =>
          if evaluator = some e then adopted.foldl publishAdoptedRenewal (s.caches e) else s.caches e
        adopted := s.adopted ++ adopted.map AlertState.key }
  | .admission evaluator rule serverId resolved now enqueue commits =>
    match admitAlertTransition enqueue commits rule serverId resolved now ⟨s.db.states, s.db.jobs⟩
      (s.caches evaluator) with
    | none => s
    | some (db, cache, _) =>
      { s with
        db := { s.db with states := db.states, jobs := db.jobs }
        caches := Function.update s.caches evaluator cache }
  | .restart evaluator => { s with caches := Function.update s.caches evaluator (loadFromDb s.db.states) }

def run (s : St J) (ops : List (Op J)) : St J := ops.foldl (step C) s

end Machine

end ServerBee.Reminders
