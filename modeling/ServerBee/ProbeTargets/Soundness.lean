/-
Whether target ids name existing targets.

Three orders of statements leave an id of a deleted target behind (`Guarded`): rows inserted after the deletion has dropped the
target's rows, a setting stored after the deletion has stored its own, and a deletion that stores a setting it read before another
call stored one; the last also puts back that call's interval and packet count. Apart from orders, `update_setting` accepts
lists that `apply_defaults_tx` refuses: more than 20 ids, and an id twice. `Inv` is about the ids that are stored while
deletions run, and a statement that meets the condition keeps it.
-/
import ServerBee.ProbeTargets.Model

namespace ServerBee.ProbeTargets

open ServerBee.Lib

/-- the deletion has dropped the rows of its target -/
def DeletePhase.pastConfigs : DeletePhase → Bool
  | .verify => false
  | .deleteConfigs => false
  | _ => true

/-- the deletion has stored the setting without its target -/
def DeletePhase.pastSetting : DeletePhase → Bool
  | .deleteTarget => true
  | _ => false

def Call.pastConfigs (id : String) : Call → Bool
  | .deleteTarget id' phase => id' = id && phase.pastConfigs
  | _ => false

def Call.pastSetting (id : String) : Call → Bool
  | .deleteTarget id' phase => id' = id && phase.pastSetting
  | _ => false

/-- a list that `apply_defaults_tx` takes for every server -/
def Applicable (ids : List String) : Prop := ids.Nodup ∧ ids.length ≤ 20

instance (ids : List String) : Decidable (Applicable ids) := inferInstanceAs (Decidable (_ ∧ _))

variable (isPreset : String → Bool)

/-- rows for these ids outlive no deletion -/
def MayInsert (s : State) (ids : List String) : Prop :=
  ∀ id ∈ ids, Exists isPreset s id ∧ ∀ call ∈ s.calls, call.pastConfigs id = false

/-- what a statement that succeeds has to meet -/
def Meets (s : State) : Call → Prop
  | .deleteTarget id (.writeSetting setting existing) => Takes s existing → setting = s.current.without id
  | .updateSetting setting (.writeSetting existing) =>
    Takes s existing → Applicable setting.defaultTargetIds ∧
      ∀ id ∈ setting.defaultTargetIds, Exists isPreset s id ∧ ∀ call ∈ s.calls, call.pastSetting id = false
  | .setServerTargets _ ids .transaction => MayInsert isPreset s ids
  | .applyDefaults _ (.transaction ids) => MayInsert isPreset s ids
  | _ => True

def Guarded (s : State) : Op → Prop
  | .next i false => ∀ call ∈ s.calls[i]?, Meets isPreset s call
  | _ => True

instance (s : State) (call : Call) : Decidable (Meets isPreset s call) := by
  unfold Meets MayInsert
  split <;> infer_instance

instance (s : State) (op : Op) : Decidable (Guarded isPreset s op) := by
  unfold Guarded
  split <;> infer_instance

/-! ## The invariant -/

structure Inv (s : State) : Prop where
  configs : ∀ row ∈ s.configs, Exists isPreset s row.2 ∧ ∀ call ∈ s.calls, call.pastConfigs row.2 = false
  defaults : ∀ id ∈ s.current.defaultTargetIds, Exists isPreset s id ∧ ∀ call ∈ s.calls, call.pastSetting id = false
  applicable : Applicable s.current.defaultTargetIds

section Steps

variable {isPreset} {s : State} {i : ℕ} {id : String}

/-- a call moves to a place where it has dropped nothing more -/
theorem Inv.goto (hi : Inv isPreset s) {call : Call} (hconfigs : ∀ row ∈ s.configs, call.pastConfigs row.2 = false)
    (hsetting : ∀ id ∈ s.current.defaultTargetIds, call.pastSetting id = false) : Inv isPreset (goto s i call) where
  configs row hrow := by
    refine ⟨(hi.configs row hrow).1, fun call' hcall' => ?_⟩
    rcases List.mem_or_eq_of_mem_set hcall' with hold | rfl
    · exact (hi.configs row hrow).2 call' hold
    · exact hconfigs row hrow
  defaults id hid := by
    refine ⟨(hi.defaults id hid).1, fun call' hcall' => ?_⟩
    rcases List.mem_or_eq_of_mem_set hcall' with hold | rfl
    · exact (hi.defaults id hid).2 call' hold
    · exact hsetting id hid
  applicable := hi.applicable

/-- a call that is no deletion under way -/
theorem Inv.gotoHarmless (hi : Inv isPreset s) {call : Call} (hconfigs : ∀ id, call.pastConfigs id = false)
    (hsetting : ∀ id, call.pastSetting id = false) : Inv isPreset (ProbeTargets.goto s i call) :=
  hi.goto (fun _ _ => hconfigs _) fun _ _ => hsetting _

theorem Inv.done (hi : Inv isPreset s) : Inv isPreset (ProbeTargets.goto s i .done) :=
  hi.gotoHarmless (fun _ => rfl) fun _ => rfl

theorem Inv.start (hi : Inv isPreset s) {call : Call} (hconfigs : ∀ id, call.pastConfigs id = false)
    (hsetting : ∀ id, call.pastSetting id = false) : Inv isPreset (start s call) where
  configs row hrow := by
    refine ⟨(hi.configs row hrow).1, fun call' hcall' => ?_⟩
    rcases List.mem_append.1 hcall' with hold | hnew
    · exact (hi.configs row hrow).2 call' hold
    · rw [List.mem_singleton.1 hnew]
      exact hconfigs _
  defaults id hid := by
    refine ⟨(hi.defaults id hid).1, fun call' hcall' => ?_⟩
    rcases List.mem_append.1 hcall' with hold | hnew
    · exact (hi.defaults id hid).2 call' hold
    · rw [List.mem_singleton.1 hnew]
      exact hsetting _
  applicable := hi.applicable

theorem Inv.insertTarget (hi : Inv isPreset s) (id : String) : Inv isPreset { s with targets := insert id s.targets } where
  configs row hrow := ⟨(hi.configs row hrow).1.imp_right (Finset.mem_insert_of_mem ·), (hi.configs row hrow).2⟩
  defaults id' hid' := ⟨(hi.defaults id' hid').1.imp_right (Finset.mem_insert_of_mem ·), (hi.defaults id' hid').2⟩
  applicable := hi.applicable

theorem Inv.withConfigs (hi : Inv isPreset s) (configs : Finset (String × String))
    (h : ∀ row ∈ configs, row ∈ s.configs ∨ Exists isPreset s row.2 ∧ ∀ call ∈ s.calls, call.pastConfigs row.2 = false) :
    Inv isPreset { s with configs := configs } where
  configs row hrow := (h row hrow).elim (hi.configs row) fun hnew => hnew
  defaults := hi.defaults
  applicable := hi.applicable

theorem Inv.withSetting (hi : Inv isPreset s) {setting : NetworkProbeSetting} (happlicable : Applicable setting.defaultTargetIds)
    (h : ∀ id ∈ setting.defaultTargetIds, Exists isPreset s id ∧ ∀ call ∈ s.calls, call.pastSetting id = false) :
    Inv isPreset { s with setting := some setting } where
  configs := hi.configs
  defaults := h
  applicable := happlicable

theorem mem_replaceConfigs {serverId : String} {ids : List String} {configs : Finset (String × String)} {row : String × String}
    (h : row ∈ (replaceConfigs serverId ids configs).getD configs) : row ∈ configs ∨ row.2 ∈ ids := by
  unfold replaceConfigs at h
  split_ifs at h
  · rcases Finset.mem_union.1 h with hold | hnew
    · exact Or.inl (Finset.mem_filter.1 hold).1
    · obtain ⟨id, hid, rfl⟩ := List.mem_map.1 (List.mem_toFinset.1 hnew)
      exact Or.inr hid
  · exact Or.inl h

theorem mem_applyDefaultsTx {serverId : String} {ids : List String} {configs : Finset (String × String)} {row : String × String}
    (h : row ∈ (applyDefaultsTx serverId ids configs).getD configs) : row ∈ configs ∨ row.2 ∈ ids := by
  unfold applyDefaultsTx at h
  split_ifs at h
  · exact Or.inl h
  · exact Or.inl h
  · exact mem_replaceConfigs h

theorem Applicable.without {setting : NetworkProbeSetting} (h : Applicable setting.defaultTargetIds) (id : String) :
    Applicable (setting.without id).defaultTargetIds :=
  ⟨h.1.filter _, (List.length_filter_le _ _).trans h.2⟩

theorem mem_without {setting : NetworkProbeSetting} {id' : String} (h : id' ∈ (setting.without id).defaultTargetIds) :
    id' ∈ setting.defaultTargetIds ∧ id' ≠ id := by
  obtain ⟨hmem, hne⟩ := List.mem_filter.1 h
  exact ⟨hmem, by simpa using hne⟩

theorem Inv.advanceDelete (hi : Inv isPreset s) {phase : DeletePhase} (hcall : .deleteTarget id phase ∈ s.calls)
    (hmeets : Meets isPreset s (.deleteTarget id phase)) : Inv isPreset (advanceDelete s i id phase) := by
  -- once past its rows, a deletion finds none of them again
  have hrows (hpast : phase.pastConfigs = true) (row : String × String) (hrow : row ∈ s.configs) : id ≠ row.2 := by
    rintro rfl
    have hno := (hi.configs row hrow).2 _ hcall
    simp [Call.pastConfigs, hpast] at hno
  have hahead {phase' : DeletePhase} (hpast : phase.pastConfigs = true) :
      ∀ row ∈ s.configs, (Call.deleteTarget id phase').pastConfigs row.2 = false := fun row hrow => by
    simp [Call.pastConfigs, hrows hpast row hrow]
  cases phase with
  | verify =>
    simp only [ProbeTargets.advanceDelete]
    split_ifs
    · exact hi.gotoHarmless (fun _ => by simp [Call.pastConfigs, DeletePhase.pastConfigs])
        fun _ => by simp [Call.pastSetting, DeletePhase.pastSetting]
    · exact hi.done
  | deleteConfigs =>
    have hdropped := hi.withConfigs (s.configs.filter (·.2 ≠ id)) fun row hrow => Or.inl (Finset.mem_filter.1 hrow).1
    refine hdropped.goto (fun row hrow => ?_) fun _ _ => by simp [Call.pastSetting, DeletePhase.pastSetting]
    simp [Call.pastConfigs, (Finset.mem_filter.1 hrow).2.symm]
  | deleteRecords => exact hi.goto (hahead rfl) fun _ _ => by simp [Call.pastSetting, DeletePhase.pastSetting]
  | deleteRecordsHourly => exact hi.goto (hahead rfl) fun _ _ => by simp [Call.pastSetting, DeletePhase.pastSetting]
  | getSetting => exact hi.goto (hahead rfl) fun _ _ => by simp [Call.pastSetting, DeletePhase.pastSetting]
  | findSetting setting => exact hi.goto (hahead rfl) fun _ _ => by simp [Call.pastSetting, DeletePhase.pastSetting]
  | writeSetting setting existing =>
    simp only [ProbeTargets.advanceDelete]
    split_ifs with htakes
    · obtain rfl := hmeets htakes
      have hstored := hi.withSetting (hi.applicable.without id) fun id' hid' => hi.defaults id' (mem_without hid').1
      refine hstored.goto (hahead rfl) fun id' hid' => ?_
      simp [Call.pastSetting, (mem_without hid').2.symm]
    · exact hi.done
  | deleteTarget =>
    have hids : ∀ id' ∈ s.current.defaultTargetIds, id' ≠ id := by
      rintro id' hid' rfl
      have hno := (hi.defaults id' hid').2 _ hcall
      simp [Call.pastSetting, DeletePhase.pastSetting] at hno
    have herased : Inv isPreset { s with targets := s.targets.erase id } :=
      { configs := fun row hrow => ⟨(hi.configs row hrow).1.imp_right (Finset.mem_erase_of_ne_of_mem (hrows rfl row hrow).symm ·),
          (hi.configs row hrow).2⟩
        defaults := fun id' hid' => ⟨(hi.defaults id' hid').1.imp_right (Finset.mem_erase_of_ne_of_mem (hids id' hid') ·),
          (hi.defaults id' hid').2⟩
        applicable := hi.applicable }
    exact herased.done

theorem Inv.advance (hi : Inv isPreset s) {call : Call} (hcall : call ∈ s.calls) (hmeets : Meets isPreset s call) :
    Inv isPreset (advance isPreset s i call) := by
  cases call with
  | done => exact hi
  | createTarget id =>
    simp only [ProbeTargets.advance]
    split_ifs
    · exact hi.done
    · exact (hi.insertTarget id).done
  | deleteTarget id phase => exact hi.advanceDelete hcall hmeets
  | updateSetting setting phase =>
    simp only [ProbeTargets.advance]
    match phase, hmeets with
    | .validate [], _ => exact hi.gotoHarmless (fun _ => rfl) fun _ => rfl
    | .validate (id :: ids), _ =>
      simp only [advanceUpdate]
      split_ifs
      · exact hi.gotoHarmless (fun _ => rfl) fun _ => rfl
      · exact hi.done
    | .findSetting, _ => exact hi.gotoHarmless (fun _ => rfl) fun _ => rfl
    | .writeSetting existing, hmeets =>
      simp only [advanceUpdate]
      split_ifs with htakes
      · obtain ⟨happlicable, hids⟩ := hmeets htakes
        exact (hi.withSetting happlicable hids).done
      · exact hi.done
  | setServerTargets serverId ids phase =>
    simp only [ProbeTargets.advance]
    match phase, hmeets with
    | .validate [], _ => exact hi.gotoHarmless (fun _ => rfl) fun _ => rfl
    | .validate (id :: rest), _ =>
      simp only [advanceAssign]
      split_ifs
      · exact hi.gotoHarmless (fun _ => rfl) fun _ => rfl
      · exact hi.done
    | .transaction, hmeets =>
      exact (hi.withConfigs _ fun row hrow => (mem_replaceConfigs hrow).imp_right (hmeets row.2)).done
  | applyDefaults serverId phase =>
    simp only [ProbeTargets.advance]
    match phase, hmeets with
    | .getSetting, _ => exact hi.gotoHarmless (fun _ => rfl) fun _ => rfl
    | .transaction ids, hmeets =>
      exact (hi.withConfigs _ fun row hrow => (mem_applyDefaultsTx hrow).imp_right (hmeets row.2)).done

theorem Inv.step (hi : Inv isPreset s) {op : Op} (hguard : Guarded isPreset s op) : Inv isPreset (step isPreset s op) := by
  cases op with
  | createTarget id => exact hi.start (fun _ => rfl) fun _ => rfl
  | deleteTarget id =>
    simp only [ProbeTargets.step]
    split_ifs
    · exact hi
    · exact hi.start (fun _ => by simp [Call.pastConfigs, DeletePhase.pastConfigs])
        fun _ => by simp [Call.pastSetting, DeletePhase.pastSetting]
  | updateSetting setting =>
    simp only [ProbeTargets.step]
    split_ifs
    · exact hi.start (fun _ => rfl) fun _ => rfl
    · exact hi
  | setServerTargets serverId ids =>
    simp only [ProbeTargets.step]
    split_ifs
    · exact hi
    · exact hi.start (fun _ => rfl) fun _ => rfl
  | applyDefaults serverId => exact hi.start (fun _ => rfl) fun _ => rfl
  | next i fails =>
    simp only [ProbeTargets.step]
    cases hcall : s.calls[i]? with
    | none => exact hi
    | some call =>
      cases fails with
      | true => exact hi.done
      | false => exact hi.advance (List.mem_of_getElem? hcall) (hguard call hcall)

end Steps

/-! ## Runs -/

/-- every stored id names a preset or an existing target -/
def Sound (s : State) : Prop :=
  (∀ row ∈ s.configs, Exists isPreset s row.2) ∧ ∀ id ∈ s.current.defaultTargetIds, Exists isPreset s id

/-- what every statement is meant to keep -/
structure Kept (s : State) (op : Op) : Prop where
  sound : (∀ call ∈ (step isPreset s op).calls, call = .done) → Sound isPreset (step isPreset s op)
  /-- a deletion puts no other interval and packet count in the setting -/
  values : ∀ i fails id phase, op = .next i fails → s.calls[i]? = some (.deleteTarget id phase) →
    (step isPreset s op).current.interval = s.current.interval ∧
      (step isPreset s op).current.packetCount = s.current.packetCount
  /-- the stored list can be applied to every server -/
  applies : ∀ serverId configs,
    (applyDefaultsTx serverId (step isPreset s op).current.defaultTargetIds configs).isSome

section Runs

variable {isPreset} {s : State}

theorem Inv.init : Inv isPreset State.init where
  configs _ h := absurd h (Finset.notMem_empty _)
  defaults _ h := absurd h List.not_mem_nil
  applicable := ⟨List.nodup_nil, Nat.zero_le _⟩

theorem Applicable.isSome {ids : List String} (h : Applicable ids) (serverId : String) (configs : Finset (String × String)) :
    (applyDefaultsTx serverId ids configs).isSome := by
  unfold applyDefaultsTx replaceConfigs
  rw [if_neg (not_lt.2 h.2), if_pos h.1]
  split_ifs <;> rfl

/-- a deletion stores the current setting without its target, or stores nothing -/
theorem advanceDelete_values {i : ℕ} {id : String} {phase : DeletePhase}
    (hmeets : Meets isPreset s (.deleteTarget id phase)) :
    (advanceDelete s i id phase).current.interval = s.current.interval ∧
      (advanceDelete s i id phase).current.packetCount = s.current.packetCount := by
  cases phase with
  | verify =>
    simp only [advanceDelete]
    split_ifs <;> exact ⟨rfl, rfl⟩
  | writeSetting setting existing =>
    simp only [advanceDelete]
    split_ifs with htakes
    · obtain rfl := hmeets htakes
      exact ⟨rfl, rfl⟩
    · exact ⟨rfl, rfl⟩
  | _ => exact ⟨rfl, rfl⟩

theorem Inv.kept (hi : Inv isPreset s) {op : Op} (hguard : Guarded isPreset s op) : Kept isPreset s op where
  sound _ := ⟨fun row hrow => ((hi.step hguard).configs row hrow).1, fun id hid => ((hi.step hguard).defaults id hid).1⟩
  values := by
    rintro i fails id phase rfl hcall
    simp only [ProbeTargets.step, hcall]
    cases fails with
    | true => exact ⟨rfl, rfl⟩
    | false => exact advanceDelete_values (hguard _ hcall)
  applies serverId configs := (hi.step hguard).applicable.isSome serverId configs

/-- **Probe targets.** In a run whose successful statements meet the condition, whenever no call is in progress every stored id
names a preset or an existing target, no deletion puts older values in the setting, and the stored list of defaults can
be applied to every server -/
theorem probe_targets_sound (isPreset : String → Bool) (ops : List Op)
    (hguard : Along (step isPreset) (Guarded isPreset) State.init ops) :
    Along (step isPreset) (Kept isPreset) State.init ops :=
  Along.of_invariant (I := Inv isPreset) (fun _ _ hi hg => hi.step hg) (fun _ _ hi hg => hi.kept hg) Inv.init hguard

end Runs

/-! ## Stale ids -/

def noPresets : String → Bool := fun _ => false

def statements (i n : ℕ) : List Op := List.replicate n (.next i false)

/-- a target is created, is a default and is assigned to a server, and is deleted -/
theorem probe_targets_sound_once :
    Along (step noPresets) (Kept noPresets) State.init
      ([.createTarget "t1"] ++ statements 0 1 ++ [.updateSetting ⟨60, 10, ["t1"]⟩] ++ statements 1 4 ++ [.applyDefaults "s1"] ++
        statements 2 2 ++ [.deleteTarget "t1"] ++ statements 3 8) :=
  probe_targets_sound noPresets _ (by decide)

/-- an assignment is validated, the target is deleted, and the assignment is written -/
def lateAssignment : List Op :=
  [.createTarget "t1"] ++ statements 0 1 ++ [.setServerTargets "s1" ["t1"]] ++ statements 1 2 ++ [.deleteTarget "t1"] ++
    statements 2 8 ++ statements 1 1

/-- a deletion reads the setting, the interval is changed, and the deletion stores what it read -/
def staleSetting : List Op :=
  [.createTarget "t1"] ++ statements 0 1 ++ [.deleteTarget "t1"] ++ statements 1 5 ++ [.updateSetting ⟨300, 20, []⟩] ++
    statements 2 3 ++ statements 1 2

/-- an id twice is accepted -/
def twice : List Op :=
  [.createTarget "t1"] ++ statements 0 1 ++ [.updateSetting ⟨60, 10, ["t1", "t1"]⟩] ++ statements 1 5

/-- **Stale ids.** A row of a deleted target, an interval that was replaced, and a list that no server can get. -/
theorem stale_target :
    ((∀ call ∈ (runs (step noPresets) State.init lateAssignment).calls, call = .done) ∧
      ¬ Sound noPresets (runs (step noPresets) State.init lateAssignment)) ∧
    ((runs (step noPresets) State.init staleSetting).current = ⟨60, 10, []⟩) ∧
    ((∀ id ∈ (runs (step noPresets) State.init twice).current.defaultTargetIds,
        Exists noPresets (runs (step noPresets) State.init twice) id) ∧
      applyDefaultsTx "s1" (runs (step noPresets) State.init twice).current.defaultTargetIds ∅ = none) := by
  refine ⟨⟨by decide, fun h => ?_⟩, by decide, by decide, by decide⟩
  exact absurd (h.1 ("s1", "t1") (by decide)) (by decide)

end ServerBee.ProbeTargets
