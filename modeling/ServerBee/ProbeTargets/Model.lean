/-
Probe targets, the global probe setting and the targets of servers (`service/network_probe.rs`: `create_target`,
`delete_target`, `update_setting`, `set_server_targets`, `apply_defaults_tx`; `ConfigService::get_typed`, `set_typed`).

A call is a program of statements that interleave with those of other calls; a statement that fails ends its call. The
transactions of `set_server_targets` and of the callers of `apply_defaults_tx` are one step each, which the database
serialises. Of a target row only the id is here, and of the tables only the ones with target ids that are not records. The
stored setting is decoded. Which ids are presets is a parameter.
-/
import ServerBee.Lib.Run
import Mathlib.Data.Finset.Image

namespace ServerBee.ProbeTargets

structure NetworkProbeSetting where
  interval : ℕ
  packetCount : ℕ
  defaultTargetIds : List String
deriving DecidableEq, Repr

def NetworkProbeSetting.default : NetworkProbeSetting := ⟨60, 10, []⟩

/-- `default_target_ids.retain(|tid| tid != id)` -/
def NetworkProbeSetting.without (setting : NetworkProbeSetting) (id : String) : NetworkProbeSetting :=
  { setting with defaultTargetIds := setting.defaultTargetIds.filter (· ≠ id) }

/-! ## Calls -/

/-- the next statement of `delete_target`; `set_typed` reads the row to choose between UPDATE and INSERT -/
inductive DeletePhase where
  | verify
  | deleteConfigs
  | deleteRecords
  | deleteRecordsHourly
  | getSetting
  | findSetting (setting : NetworkProbeSetting)
  | writeSetting (setting : NetworkProbeSetting) (existing : Bool)
  | deleteTarget
deriving DecidableEq, Repr

inductive UpdatePhase where
  | validate (ids : List String)
  | findSetting
  | writeSetting (existing : Bool)
deriving DecidableEq, Repr

inductive AssignPhase where
  | validate (ids : List String)
  | transaction
deriving DecidableEq, Repr

inductive ApplyPhase where
  | getSetting
  | transaction (ids : List String)
deriving DecidableEq, Repr

inductive Call where
  | createTarget (id : String)
  | deleteTarget (id : String) (phase : DeletePhase)
  | updateSetting (setting : NetworkProbeSetting) (phase : UpdatePhase)
  | setServerTargets (serverId : String) (ids : List String) (phase : AssignPhase)
  | applyDefaults (serverId : String) (phase : ApplyPhase)
  | done
deriving DecidableEq, Repr

structure State where
  targets : Finset String
  /-- (server, target), with its UNIQUE constraint -/
  configs : Finset (String × String)
  setting : Option NetworkProbeSetting
  calls : List Call

def State.init : State := ⟨∅, ∅, none, []⟩

/-- what `get_setting` returns -/
def State.current (s : State) : NetworkProbeSetting := s.setting.getD .default

def start (s : State) (call : Call) : State := { s with calls := s.calls ++ [call] }

def goto (s : State) (i : ℕ) (call : Call) : State := { s with calls := s.calls.set i call }

/-! ## Statements -/

/-- the DELETE and the INSERTs of a transaction: a target twice violates the UNIQUE constraint -/
def replaceConfigs (serverId : String) (ids : List String) (configs : Finset (String × String)) :
    Option (Finset (String × String)) :=
  if ids.Nodup then some (configs.filter (·.1 ≠ serverId) ∪ (ids.map fun id => (serverId, id)).toFinset) else none

def applyDefaultsTx (serverId : String) (ids : List String) (configs : Finset (String × String)) :
    Option (Finset (String × String)) :=
  if ids = [] then some configs
  else if ids.length > 20 then none
  else replaceConfigs serverId ids configs

/-- the row of the setting is written: UPDATE when it was found, else INSERT, refused when there is one now -/
def Takes (s : State) (existing : Bool) : Prop := existing = true ∨ s.setting = none

instance (s : State) (existing : Bool) : Decidable (Takes s existing) := inferInstanceAs (Decidable (_ ∨ _))

variable (isPreset : String → Bool)

def Exists (s : State) (id : String) : Prop := isPreset id = true ∨ id ∈ s.targets

instance (s : State) (id : String) : Decidable (Exists isPreset s id) := inferInstanceAs (Decidable (_ ∨ _))

def advanceDelete (s : State) (i : ℕ) (id : String) : DeletePhase → State
  | .verify => if id ∈ s.targets then goto s i (.deleteTarget id .deleteConfigs) else goto s i .done
  | .deleteConfigs => goto { s with configs := s.configs.filter (·.2 ≠ id) } i (.deleteTarget id .deleteRecords)
  | .deleteRecords => goto s i (.deleteTarget id .deleteRecordsHourly)
  | .deleteRecordsHourly => goto s i (.deleteTarget id .getSetting)
  | .getSetting => goto s i (.deleteTarget id (.findSetting (s.current.without id)))
  | .findSetting setting => goto s i (.deleteTarget id (.writeSetting setting s.setting.isSome))
  | .writeSetting setting existing =>
    if Takes s existing then goto { s with setting := some setting } i (.deleteTarget id .deleteTarget) else goto s i .done
  | .deleteTarget => goto { s with targets := s.targets.erase id } i .done

def advanceUpdate (s : State) (i : ℕ) (setting : NetworkProbeSetting) : UpdatePhase → State
  | .validate [] => goto s i (.updateSetting setting .findSetting)
  | .validate (id :: ids) =>
    if Exists isPreset s id then goto s i (.updateSetting setting (.validate ids)) else goto s i .done
  | .findSetting => goto s i (.updateSetting setting (.writeSetting s.setting.isSome))
  | .writeSetting existing => if Takes s existing then goto { s with setting := some setting } i .done else goto s i .done

def advanceAssign (s : State) (i : ℕ) (serverId : String) (ids : List String) : AssignPhase → State
  | .validate [] => goto s i (.setServerTargets serverId ids .transaction)
  | .validate (id :: rest) =>
    if Exists isPreset s id then goto s i (.setServerTargets serverId ids (.validate rest)) else goto s i .done
  | .transaction => goto { s with configs := (replaceConfigs serverId ids s.configs).getD s.configs } i .done

def advanceApply (s : State) (i : ℕ) (serverId : String) : ApplyPhase → State
  | .getSetting => goto s i (.applyDefaults serverId (.transaction s.current.defaultTargetIds))
  | .transaction ids => goto { s with configs := (applyDefaultsTx serverId ids s.configs).getD s.configs } i .done

/-- the next statement of a call succeeds -/
def advance (s : State) (i : ℕ) : Call → State
  | .createTarget id => if id ∈ s.targets then goto s i .done else goto { s with targets := insert id s.targets } i .done
  | .deleteTarget id phase => advanceDelete s i id phase
  | .updateSetting setting phase => advanceUpdate isPreset s i setting phase
  | .setServerTargets serverId ids phase => advanceAssign isPreset s i serverId ids phase
  | .applyDefaults serverId phase => advanceApply s i serverId phase
  | .done => s

/-! ## Runs -/

inductive Op where
  /-- with an id that the caller draws; the type and the address have passed their checks -/
  | createTarget (id : String)
  | deleteTarget (id : String)
  | updateSetting (setting : NetworkProbeSetting)
  | setServerTargets (serverId : String) (ids : List String)
  /-- a caller of `apply_defaults_tx`, which reads the setting first -/
  | applyDefaults (serverId : String)
  /-- the next statement of a call, which can fail -/
  | next (i : ℕ) (fails : Bool)
deriving DecidableEq, Repr

def step (s : State) : Op → State
  | .createTarget id => start s (.createTarget id)
  | .deleteTarget id => if isPreset id then s else start s (.deleteTarget id .verify)
  | .updateSetting setting =>
    if (30 ≤ setting.interval ∧ setting.interval ≤ 600) ∧ 5 ≤ setting.packetCount ∧ setting.packetCount ≤ 20 then
      start s (.updateSetting setting (.validate setting.defaultTargetIds))
    else s
  | .setServerTargets serverId ids =>
    if ids.length > 20 then s else start s (.setServerTargets serverId ids (.validate ids))
  | .applyDefaults serverId => start s (.applyDefaults serverId .getSetting)
  | .next i fails =>
    match s.calls[i]? with
    | none => s
    | some call => if fails then goto s i .done else advance isPreset s i call

end ServerBee.ProbeTargets
