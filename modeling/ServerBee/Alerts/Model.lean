/-
Alert states and their display cache (`entity/alert_state.rs`, `entity/alert_rule.rs`, `AlertStateManager` of
`service/alert.rs`).

`alert_states` has a unique index on (rule_id, server_id, event_key). An event key is empty for general alerts,
`renewal:<occurrence>` for renewal reminders, and some other text for event alerts; it is kept decoded. Identifiers are
ℕ and instants ℤ, in nanoseconds. JSON columns of a rule are stored decoded, together with the text they came from where
the text is compared.
-/
import ServerBee.Lib.Table

namespace ServerBee.Alerts

open ServerBee.Lib

inductive EventKey where
  | general
  | renewal (occurrence : ℕ)
  | event (text : String)
deriving DecidableEq, Repr

/-- `event_key LIKE 'renewal:%'` -/
def EventKey.isRenewal : EventKey → Bool
  | .renewal _ => true
  | _ => false

abbrev StateKey := ℕ × ℕ × EventKey

structure AlertState where
  ruleId : ℕ
  serverId : ℕ
  eventKey : EventKey
  firstTriggeredAt : ℤ
  lastNotifiedAt : ℤ
  count : ℤ
  resolved : Bool
  resolvedAt : Option ℤ
  updatedAt : ℤ
deriving DecidableEq, Repr

def AlertState.key (s : AlertState) : StateKey := (s.ruleId, s.serverId, s.eventKey)

abbrev States := Table AlertState.key

structure AlertRuleItem where
  ruleType : String
  duration : Option ℕ
deriving DecidableEq, Repr

structure AlertRule where
  id : ℕ
  name : String
  enabled : Bool
  rulesJson : String
  /-- `rules_json` decoded; `[]` when it does not decode -/
  items : List AlertRuleItem
  triggerMode : String
  notificationGroupId : Option ℕ
  coverType : String
  serverIds : List ℕ
deriving DecidableEq, Repr

/-- `i32::saturating_add` -/
def saturatingAdd (a b : ℤ) : ℤ := max (-2147483648) (min (a + b) 2147483647)

/-- `as u32` -/
def asU32 (a : ℤ) : ℕ := (a % 4294967296).toNat

/-- `Duration::minutes(5)` in nanoseconds -/
def fiveMinutes : ℤ := 300000000000

/-! ## The display cache -/

structure TriggeredInfo where
  firstTriggeredAt : ℤ
  lastNotifiedAt : ℤ
  count : ℕ
deriving DecidableEq, Repr

/-- `AlertStateManager.triggered` -/
abbrev Cache := StateKey → Option TriggeredInfo

def AlertState.info (s : AlertState) : TriggeredInfo := ⟨s.firstTriggeredAt, s.lastNotifiedAt, asU32 s.count⟩

/-- the cache entry that agrees with a row -/
def shown (row : Option AlertState) : Option TriggeredInfo := (row.filter fun s => !s.resolved).map AlertState.info

def publishState (cache : Cache) (state : AlertState) : Cache :=
  if state.resolved then Function.update cache state.key none else Function.update cache state.key (some state.info)

def loadFromDb (states : States) : Cache := fun k => shown (states.get k)

theorem publishState_self (cache : Cache) (state : AlertState) :
    publishState cache state state.key = shown (some state) := by
  unfold publishState shown
  split_ifs with h <;> simp [h]

end ServerBee.Alerts
