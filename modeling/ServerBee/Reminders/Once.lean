/-
Once-per-occurrence reminders, over whole runs.

A row with a renewal key is never deleted and never loses its key; it comes from an evaluation that answered `triggered`,
or from the adoption of a legacy row. So the rows with a renewal key are exactly the occurrences that were notified or
adopted (`Inv.present`), and a once rule triggers only where there is no row yet.

A call whose snapshot of the rule is stale commits without looking at its conditions: `stale_snapshot_silent`.
-/
import ServerBee.Reminders.Model
import ServerBee.Renewal.Boundaries

namespace ServerBee.Reminders

open ServerBee.Lib ServerBee.Alerts ServerBee.Renewal

/-! ## What the operations do to the rows -/

section Rows

variable {J : Type} {C : Crates}

theorem closeRows_get {states : States} {p : AlertState → Bool} {resolvedAt : Option ℤ} {now : ℤ} {k : StateKey} :
    (closeRows states p resolvedAt now).1.get k =
      (states.get k).map fun r => if p r then closeRow resolvedAt now r else r := by
  exact Table.get_update (p := p) (f := closeRow resolvedAt now) fun _ _ => rfl

theorem firedRow_key {ruleId serverId occurrence : ℕ} {existing : Option AlertState} {now : ℤ}
    (h : ∀ r, existing = some r → r.key = (ruleId, serverId, .renewal occurrence)) :
    (firedRow ruleId serverId occurrence existing now).key = (ruleId, serverId, .renewal occurrence) := by
  cases existing with
  | none => rfl
  | some r => exact h r rfl

/-- general admission leaves every other row alone -/
theorem admission_other {enqueue : AlertState → J → Option J} {commits resolved : Bool} {rule : AlertRule}
    {serverId : ℕ} {now : ℤ} {db db' : Alerts.Db J} {cache cache' : Cache} {notified : Bool}
    (h : admitAlertTransition enqueue commits rule serverId resolved now db cache = some (db', cache', notified))
    {k : StateKey} (hk : k ≠ (rule.id, serverId, .general)) : db'.states.get k = db.states.get k := by
  rcases admit_cases h with ⟨-, -, -, rfl, -⟩ | ⟨-, -, hrows, -⟩
  · rfl
  · rw [hrows, if_neg hk]

/-- a committed evaluation of an occurrence: the reminders of other occurrences are closed; a row of the occurrence is
kept, and made only by an answer `triggered` -/
structure OccurrenceSpec (C : Crates) (db : Db J) (rule : AlertRule) (items : List AlertRuleItem)
    (model : Renewal.Server) (occurrence : ℕ) (otherConditions : Bool) (now : ℤ) (e : Evaluated J) : Prop where
  servers : e.db.servers = db.servers
  rules : e.db.rules = db.rules
  others : ∀ k : StateKey, k ≠ (rule.id, model.id, .renewal occurrence) → ∃ resolvedAt, e.db.states.get k =
    (db.states.get k).map fun r => if isOther rule.id model.id occurrence r then closeRow resolvedAt now r else r
  present : (e.db.states.get (rule.id, model.id, .renewal occurrence)).isSome = true ↔
    (db.states.get (rule.id, model.id, .renewal occurrence)).isSome = true ∨ e.outcome = some .triggered
  once : rule.triggerMode = "once" → e.outcome = some .triggered →
    db.states.get (rule.id, model.id, .renewal occurrence) = none
  fires : isMatched C model items otherConditions now = true →
    isInMaintenanceAt db.maintenances model.id now = false →
    db.states.get (rule.id, model.id, .renewal occurrence) = none → e.outcome = some .triggered

/-- the reminder of the occurrence itself is not among the others -/
theorem archived_get {states : States} {ruleId serverId occurrence : ℕ} {resolvedAt : Option ℤ} {now : ℤ} :
    (closeRows states (isOther ruleId serverId occurrence) resolvedAt now).1.get (ruleId, serverId, .renewal occurrence) =
      states.get (ruleId, serverId, .renewal occurrence) := by
  rw [closeRows_get]
  cases hr : states.get (ruleId, serverId, .renewal occurrence) with
  | none => rfl
  | some r =>
    have hkey : r.eventKey = .renewal occurrence := congrArg (fun k : StateKey => k.2.2) (Table.get_eq_some.1 hr).2
    simp [isOther, hkey]

/-- closing the reminder of the occurrence keeps its row, and the other rows -/
theorem lapsed_get {states : States} {key : StateKey} {p : AlertState → Bool} {resolvedAt : Option ℤ} {now : ℤ} :
    let lapsed := ((states.get key).filter p).map (closeRow resolvedAt now)
    ((lapsed.elim states states.set).get key).isSome = (states.get key).isSome ∧
      ∀ k, k ≠ key → (lapsed.elim states states.set).get k = states.get k := by
  intro lapsed
  cases hr : states.get key with
  | none =>
    have hl : lapsed = none := by simp [lapsed, hr]
    rw [hl]
    exact ⟨by simp [hr], fun _ _ => rfl⟩
  | some r =>
    have hrkey : (closeRow resolvedAt now r).key = key := (Table.get_eq_some.1 hr).2
    cases hp : p r with
    | false =>
      have hl : lapsed = none := by simp [lapsed, hr, hp]
      rw [hl]
      exact ⟨by simp [hr], fun _ _ => rfl⟩
    | true =>
      have hl : lapsed = some (closeRow resolvedAt now r) := by simp [lapsed, hr, hp]
      rw [hl]
      simp only [Option.elim_some, Table.get_set, hrkey]
      exact ⟨by simp [hr], fun k hk => if_neg hk⟩

/-- the answers without a notification -/
theorem quiet_outcome (recovered empty : Bool) :
    (if recovered then Outcome.resolved else if empty then .silent else .superseded) ≠ .triggered := by
  cases recovered <;> cases empty <;> decide

theorem evaluateOccurrence_spec {enqueue : AlertRule → AlertState → J → Option J} {db : Db J} {rule : AlertRule}
    {items : List AlertRuleItem} {model : Renewal.Server} {occurrence : ℕ} {otherConditions : Bool} {now : ℤ}
    {e : Evaluated J}
    (h : evaluateOccurrence C enqueue db rule items model occurrence otherConditions now = some e) :
    OccurrenceSpec C db rule items model occurrence otherConditions now e := by
  unfold evaluateOccurrence at h
  simp only at h
  set matched := isMatched C model items otherConditions now with hmatched
  set manualRecovery := (RenewalState.fromServer model).deadlineOrigin == .confirmed && !matched
  set closed := closeRows db.states (isOther rule.id model.id occurrence) (if manualRecovery then some now else none) now
    with hclosed
  set key : StateKey := (rule.id, model.id, .renewal occurrence) with hkey
  set existing := closed.1.get key with hexisting
  have hget : existing = db.states.get key := archived_get
  set lapsed := (existing.filter fun state => !matched && !state.resolved).map (closeRow (some now) now)
  set states := lapsed.elim closed.1 closed.1.set
  obtain ⟨hsame, hother⟩ : (states.get key).isSome = existing.isSome ∧
      ∀ k, k ≠ key → states.get k = closed.1.get k := lapsed_get
  have hothers : ∀ k, k ≠ key → ∃ resolvedAt, states.get k =
      (db.states.get k).map fun r => if isOther rule.id model.id occurrence r then closeRow resolvedAt now r else r :=
    fun k hk => ⟨_, (hother k hk).trans closeRows_get⟩
  split at h
  · cases h
  rename_i jobs _
  split at h
  · cases h
  rename_i jobs' _
  by_cases hquiet : (!matched || isInMaintenanceAt db.maintenances model.id now) = true
  · -- nothing matched, or the server is in maintenance
    rw [if_pos hquiet] at h
    cases h
    refine ⟨rfl, rfl, hothers, ?_, ?_, fun hm hin => ?_⟩
    · rw [hsame, hget]
      exact ⟨Or.inl, fun hor => hor.elim id fun ht => absurd (Option.some.inj ht) (quiet_outcome _ _)⟩
    · exact fun _ ht => absurd (Option.some.inj ht) (quiet_outcome _ _)
    · rw [hmatched, hm, hin] at hquiet
      cases hquiet
  rw [if_neg hquiet] at h
  simp only [Bool.or_eq_true, Bool.not_eq_true', not_or, Bool.not_eq_false, Bool.not_eq_true] at hquiet
  have hl : lapsed = none := by simp [lapsed, hquiet.1]
  have hstates : states = closed.1 := by simp only [states, hl, Option.elim_none]
  by_cases hnotify : (existing.all fun state =>
      rule.triggerMode != "once" && (state.resolved || decide (fiveMinutes ≤ now - state.lastNotifiedAt))) = true
  · rw [if_pos hnotify] at h
    split at h
    · rename_i states' jobs'' hstore _
      cases h
      have hrow : (firedRow rule.id model.id occurrence existing now).key = key :=
        firedRow_key fun r hr => (Table.get_eq_some.1 (hget.symm.trans hr)).2
      have hrows := storeState_some (show states.get _ = existing by rw [hrow, hstates]) hstore
      rw [hrow] at hrows
      refine ⟨rfl, rfl, fun k hk => ?_, ?_, fun honce _ => ?_, fun _ _ _ => rfl⟩
      · obtain ⟨resolvedAt, hk'⟩ := hothers k hk
        exact ⟨resolvedAt, by rw [← hk']; exact (hrows k).trans (if_neg hk)⟩
      · rw [hrows key, if_pos rfl]
        simp
      · rw [← hget]
        simpa [honce] using hnotify
    · cases h
  · rw [if_neg hnotify] at h
    cases h
    refine ⟨rfl, rfl, hothers, ?_, ?_, fun _ _ hnone => ?_⟩
    · rw [hsame, hget]
      exact ⟨Or.inl, fun hor => hor.elim id fun ht => absurd (Option.some.inj ht) (quiet_outcome false _)⟩
    · exact fun _ ht => absurd (Option.some.inj ht) (quiet_outcome false _)
    · rw [hget, hnone] at hnotify
      exact absurd rfl hnotify

theorem recoverCleared_spec {enqueue : AlertRule → AlertState → J → Option J} {db : Db J} {rule : AlertRule}
    {model : Renewal.Server} {now : ℤ} {e : Evaluated J} (h : recoverCleared enqueue db rule model now = some e) :
    e.db.servers = db.servers ∧ e.db.rules = db.rules ∧ e.outcome ≠ some .triggered ∧
      ∀ k, (e.db.states.get k).isSome = (db.states.get k).isSome := by
  unfold recoverCleared at h
  by_cases hcleared : model.expiredAt.isNone = true
  · rw [if_pos hcleared] at h
    obtain ⟨jobs, -, rfl⟩ := Option.map_eq_some_iff.1 h
    refine ⟨rfl, rfl, ?_, fun k => ?_⟩
    · simp only
      split_ifs <;> nofun
    · exact (congrArg Option.isSome closeRows_get).trans (Option.isSome_map ..)
  · rw [if_neg hcleared] at h
    cases h
    exact ⟨rfl, rfl, nofun, fun _ => rfl⟩

/-- the three ends of a committed evaluation: a rule that is not the caller's any more, a server without an occurrence,
and the evaluation of an occurrence -/
theorem evaluate_cases {ids : ℕ} {enqueue : AlertRule → AlertState → J → Option J} {commits otherConditions : Bool}
    {db : Db J} {snapshot : AlertRule} {serverId : ℕ} {now : ℤ} {e : Evaluated J}
    (h : evaluate C ids enqueue commits db snapshot serverId otherConditions now = some e) :
    ∃ model, model.id = serverId ∧ e.db.servers.get serverId = some model ∧ e.db.rules = db.rules ∧
      (currentRule db snapshot serverId = none ∧ e.outcome = some .silent ∧ e.db.states = db.states ∨
      (RenewalState.fromServer model).occurrenceId = none ∧ e.outcome ≠ some .triggered ∧
        (∀ k, (e.db.states.get k).isSome = (db.states.get k).isSome) ∨
      ∃ rule occurrence, currentRule db snapshot serverId = some rule ∧
        (RenewalState.fromServer model).occurrenceId = some occurrence ∧
        OccurrenceSpec C { db with servers := db.servers.set model } rule snapshot.items model occurrence otherConditions
          now e) := by
  unfold evaluate at h
  cases hbefore : db.servers.get serverId with
  | none =>
    rw [hbefore] at h
    cases h
  | some before =>
    rw [hbefore] at h
    simp only at h
    cases hadv : advanceLocked C ids before now with
    | error e =>
      rw [hadv] at h
      cases h
    | ok r =>
      obtain ⟨model, changed⟩ := r
      rw [hadv] at h
      simp only at h
      have hid : model.id = serverId := by
        rw [← (Table.get_eq_some.1 hbefore).2]
        unfold advanceLocked at hadv
        split at hadv
        · cases hadv
        · split_ifs at hadv <;> cases hadv <;> rfl
      have hset : (db.servers.set model).get serverId = some model := by
        rw [Table.get_set, if_pos hid.symm, hbefore]
        rfl
      split_ifs at h
      have hsame : currentRule { db with servers := db.servers.set model } snapshot serverId =
          currentRule db snapshot serverId := rfl
      rw [hsame] at h
      refine ⟨model, hid, ?_⟩
      cases hrule : currentRule db snapshot serverId with
      | none =>
        rw [hrule] at h
        cases h
        exact ⟨hset, rfl, Or.inl ⟨rfl, rfl, rfl⟩⟩
      | some rule =>
        cases hocc : (RenewalState.fromServer model).occurrenceId with
        | none =>
          rw [hrule, hocc] at h
          obtain ⟨hservers, hrules, hout, hrows⟩ := recoverCleared_spec h
          exact ⟨by rw [hservers]; exact hset, hrules, Or.inr (Or.inl ⟨rfl, hout, hrows⟩)⟩
        | some occurrence =>
          rw [hrule, hocc] at h
          have hspec := evaluateOccurrence_spec h
          refine ⟨?_, hspec.rules, Or.inr (Or.inr ⟨rule, occurrence, rfl, rfl, hspec⟩)⟩
          rw [hspec.servers]
          exact hset

theorem currentRule_some {db : Db J} {snapshot rule : AlertRule} {serverId : ℕ}
    (h : currentRule db snapshot serverId = some rule) :
    db.rules.get snapshot.id = some rule ∧ rule.id = snapshot.id := by
  obtain ⟨hget, -⟩ := Option.filter_eq_some_iff.1 h
  exact ⟨hget, (Table.get_eq_some.1 hget).2⟩

/-- what an adoption does to the rows with a renewal key: it adds the adopted ones -/
theorem adopt_present {db : Db J} {model : Renewal.Server} {selected : RenewalState} {deadline : Option ℤ}
    {states : States} {adopted : List AlertState}
    (h : adoptLegacyOccurrence C db model selected deadline = some (states, adopted)) {k : StateKey}
    (hk : k.2.2.isRenewal = true) :
    (states.get k).isSome = true ↔ (db.states.get k).isSome = true ∨ k ∈ adopted.map AlertState.key := by
  unfold adoptLegacyOccurrence at h
  split at h
  · cases h
    simp
  · rename_i occurrence _
    simp only at h
    split_ifs at h with hguard
    · cases h
      simp
    · obtain ⟨states', hremap, heq⟩ := Option.map_eq_some_iff.1 h
      cases heq
      have hiff : ∀ t : States, (t.get k).isSome = true ↔ ∃ r ∈ t, r.key = k := by
        intro t
        rw [Option.isSome_iff_exists]
        simp only [Table.get_eq_some]
      rw [hiff, hiff]
      constructor
      · rintro ⟨r', hr', hkey⟩
        obtain ⟨r, hr, rfl⟩ := (Table.mem_remap hremap).1 hr'
        split_ifs at hkey with ha
        · right
          rw [List.map_map]
          exact List.mem_map.2 ⟨r, List.mem_filter.2 ⟨hr, ha⟩, hkey⟩
        · exact Or.inl ⟨r, hr, hkey⟩
      · rintro (⟨r, hr, hkey⟩ | hmem)
        · -- a row with a renewal key is not adopted
          have hno : isAdoptable db model.id r = false := by
            have : r.eventKey ≠ .general := by
              intro hg
              rw [← hkey] at hk
              simp [AlertState.key, hg, EventKey.isRenewal] at hk
            simp [isAdoptable, this]
          exact ⟨r, (Table.mem_remap hremap).2 ⟨r, hr, by simp [hno]⟩, hkey⟩
        · rw [List.map_map] at hmem
          obtain ⟨r, hr, hkey⟩ := List.mem_map.1 hmem
          obtain ⟨hr, ha⟩ := List.mem_filter.1 hr
          exact ⟨adoptRow occurrence r, (Table.mem_remap hremap).2 ⟨r, hr, by simp [ha]⟩, hkey⟩

theorem updateServer_spec {ids : ℕ} {commits : Bool} {db db' : Db J} {serverId : ℕ} {input : UpdateServerInput} {now : ℤ}
    {adopted : List AlertState} (h : updateServer C ids commits db serverId input now = some (db', adopted)) :
    db'.rules = db.rules ∧ ∀ k : StateKey, k.2.2.isRenewal = true →
      ((db'.states.get k).isSome = true ↔ (db.states.get k).isSome = true ∨ k ∈ adopted.map AlertState.key) := by
  unfold updateServer at h
  by_cases hvalid : validateUpdateInput input = false
  · rw [if_pos hvalid] at h
    cases h
  rw [if_neg hvalid] at h
  split at h
  · cases h
  split at h
  · cases h
  split at h
  · cases h
  rename_i states adopted' hadopt
  by_cases hcommits : commits = true
  · simp only [hcommits, if_true] at h
    cases h
    exact ⟨rfl, fun k hk => adopt_present hadopt hk⟩
  · simp only [hcommits] at h
    cases h

end Rows

/-! ## What a step does -/

section Step

variable {J : Type} {C : Crates}

/-- `t` and `a` are the occurrences that the step notifies and adopts -/
structure RowStep (s s' : St J) (t a : List StateKey) : Prop where
  triggered : s'.triggered = s.triggered ++ t
  adopted : s'.adopted = s.adopted ++ a
  present : ∀ k : StateKey, k.2.2.isRenewal = true →
    ((s'.db.states.get k).isSome = true ↔ (s.db.states.get k).isSome = true ∨ k ∈ t ∨ k ∈ a)
  single : t.Nodup
  renewal : ∀ k ∈ t, k.2.2.isRenewal = true
  once : ∀ k ∈ t, ∃ rule, s.db.rules.get k.1 = some rule ∧
    (rule.triggerMode = "once" → s.db.states.get k = none)
  kept : ∀ id rule, s.db.rules.get id = some rule →
    ∃ rule', s'.db.rules.get id = some rule' ∧ rule'.triggerMode = rule.triggerMode

/-- a step that touches neither the rules nor the rows with a renewal key -/
theorem RowStep.quiet {s s' : St J} (ht : s'.triggered = s.triggered) (ha : s'.adopted = s.adopted)
    (hrules : s'.db.rules = s.db.rules)
    (hrows : ∀ k : StateKey, k.2.2.isRenewal = true → (s'.db.states.get k).isSome = (s.db.states.get k).isSome) :
    RowStep s s' [] [] := by
  refine ⟨by simp [ht], by simp [ha], fun k hk => by simp [hrows k hk], List.nodup_nil, nofun, nofun, ?_⟩
  intro id rule hrule
  exact ⟨rule, by rw [hrules]; exact hrule, rfl⟩

theorem evaluate_rowStep {s : St J} {call : Call J} {e : Evaluated J} (h : s.evaluate C call = some e) :
    RowStep s (step C s (.evaluate call)) (e.entry call.snapshot.id call.serverId) [] := by
  have hstep : step C s (.evaluate call) = { s with
      db := e.db
      caches := Function.update s.caches call.evaluator (e.published.foldl publishState (s.caches call.evaluator))
      triggered := s.triggered ++ e.entry call.snapshot.id call.serverId } := by
    simp only [step, h]
  rw [hstep]
  obtain ⟨model, hid, hget, hrules, hcases⟩ := evaluate_cases h
  have hoccurrence : e.db.occurrence call.serverId = (RenewalState.fromServer model).occurrenceId := by
    simp [Db.occurrence, hget]
  have hkept : ∀ id rule, s.db.rules.get id = some rule →
      ∃ rule', e.db.rules.get id = some rule' ∧ rule'.triggerMode = rule.triggerMode := by
    intro id rule hrule
    exact ⟨rule, by rw [hrules]; exact hrule, rfl⟩
  have hquiet : e.outcome ≠ some .triggered → e.entry call.snapshot.id call.serverId = [] := by
    intro hne
    unfold Evaluated.entry
    split
    · rename_i heq _
      exact absurd heq hne
    · rfl
  rcases hcases with ⟨-, hsilent, hsame⟩ | ⟨-, hne, hsame⟩ | ⟨rule, occurrence, hrule, hocc, hspec⟩
  · rw [hquiet (by rw [hsilent]; nofun)]
    exact ⟨rfl, by simp, fun k _ => by simp [hsame], List.nodup_nil, nofun, nofun, hkept⟩
  · rw [hquiet hne]
    exact ⟨rfl, by simp, fun k _ => by simp [hsame], List.nodup_nil, nofun, nofun, hkept⟩
  · obtain ⟨hruleget, hruleid⟩ := currentRule_some hrule
    have hpresent := hspec.present
    have honce := hspec.once
    rw [hruleid, hid] at hpresent honce
    have hother : ∀ k : StateKey, k ≠ (call.snapshot.id, call.serverId, .renewal occurrence) →
        (e.db.states.get k).isSome = (s.db.states.get k).isSome := by
      intro k hk
      rw [← hruleid, ← hid] at hk
      obtain ⟨resolvedAt, hk'⟩ := hspec.others k hk
      rw [hk', Option.isSome_map]
    by_cases ht : e.outcome = some .triggered
    · have hentry : e.entry call.snapshot.id call.serverId =
          [(call.snapshot.id, call.serverId, .renewal occurrence)] := by
        unfold Evaluated.entry
        rw [ht, hoccurrence, hocc]
      rw [hentry]
      refine ⟨rfl, by simp, fun k _ => ?_, List.nodup_singleton _, ?_, ?_, hkept⟩
      · by_cases hk : k = (call.snapshot.id, call.serverId, .renewal occurrence)
        · subst hk
          simp only [hpresent, ht, or_true, List.mem_singleton, true_or]
        · simp only [hother k hk, List.mem_singleton, hk, List.not_mem_nil, or_false]
      · intro k hk
        rw [List.mem_singleton.1 hk]
        rfl
      · intro k hk
        rw [List.mem_singleton.1 hk]
        exact ⟨rule, hruleget, fun hmode => honce hmode ht⟩
    · rw [hquiet ht]
      refine ⟨rfl, by simp, fun k _ => ?_, List.nodup_nil, nofun, nofun, hkept⟩
      by_cases hk : k = (call.snapshot.id, call.serverId, .renewal occurrence)
      · subst hk
        simp only [hpresent, ht, or_false, List.not_mem_nil]
      · simp only [hother k hk, List.not_mem_nil, or_false]

theorem step_rows (s : St J) (op : Op J) : ∃ t a, RowStep s (step C s op) t a := by
  have hidle : RowStep s s [] [] := RowStep.quiet rfl rfl rfl fun _ _ => rfl
  cases op with
  | addServer model =>
    refine ⟨[], [], ?_⟩
    simp only [step]
    split
    · exact hidle
    · exact RowStep.quiet rfl rfl rfl fun _ _ => rfl
  | addRule rule =>
    refine ⟨[], [], ?_⟩
    simp only [step]
    split
    · exact hidle
    · rename_i rules hinsert
      refine ⟨by simp, by simp, by simp, List.nodup_nil, nofun, nofun, fun id previous hprevious => ?_⟩
      refine ⟨previous, ?_, rfl⟩
      show rules.get id = some previous
      rw [Table.get_insert hinsert, if_neg]
      · exact hprevious
      · rintro rfl
        rw [Table.insert_fresh hinsert] at hprevious
        cases hprevious
  | editRule rule =>
    refine ⟨[], [], ?_⟩
    simp only [step]
    split_ifs with hmode
    · refine ⟨by simp, by simp, by simp, List.nodup_nil, nofun, nofun, fun id previous hprevious => ?_⟩
      simp only [Table.get_set]
      split_ifs with hid
      · subst hid
        rw [hprevious] at hmode ⊢
        exact ⟨rule, rfl, by simpa using (by simpa using hmode : previous.triggerMode = rule.triggerMode).symm⟩
      · exact ⟨previous, hprevious, rfl⟩
    · exact hidle
  | maintenance maintenances => exact ⟨[], [], RowStep.quiet rfl rfl rfl fun _ _ => rfl⟩
  | evaluate call =>
    cases he : s.evaluate C call with
    | none =>
      refine ⟨[], [], ?_⟩
      simp only [step, he]
      exact hidle
    | some e => exact ⟨_, [], evaluate_rowStep he⟩
  | advance serverId now ids commits =>
    refine ⟨[], [], ?_⟩
    simp only [step]
    split
    · exact hidle
    · rename_i db hadv
      unfold advanceServer at hadv
      split at hadv
      · cases hadv
      · split at hadv
        · cases hadv
        · split_ifs at hadv
          cases hadv
          exact RowStep.quiet rfl rfl rfl fun _ _ => rfl
  | update evaluator serverId input now ids commits =>
    simp only [step]
    split
    · exact ⟨[], [], hidle⟩
    · rename_i db adopted hupdate
      refine ⟨[], adopted.map AlertState.key, ?_⟩
      obtain ⟨hrules, hpresent⟩ := updateServer_spec hupdate
      refine ⟨by simp, rfl, fun k hk => ?_, List.nodup_nil, nofun, nofun, fun id rule hrule => ?_⟩
      · simp only [hpresent k hk, List.not_mem_nil, false_or]
      · exact ⟨rule, by rw [hrules]; exact hrule, rfl⟩
  | admission evaluator rule serverId resolved now enqueue commits =>
    refine ⟨[], [], ?_⟩
    simp only [step]
    split
    · exact hidle
    · rename_i db cache notified hadmit
      refine RowStep.quiet rfl rfl rfl fun k hk => ?_
      have hk' : k ≠ (rule.id, serverId, .general) := by
        rintro rfl
        cases hk
      exact congrArg Option.isSome (admission_other hadmit hk')
  | restart evaluator => exact ⟨[], [], RowStep.quiet rfl rfl rfl fun _ _ => rfl⟩

end Step

/-! ## Runs -/

section Runs

variable {J : Type} {C : Crates}

/-- the rows with a renewal key are the occurrences that were notified or adopted -/
structure Inv (s : St J) : Prop where
  present : ∀ k : StateKey, k.2.2.isRenewal = true →
    ((s.db.states.get k).isSome = true ↔ k ∈ s.triggered ∨ k ∈ s.adopted)
  known : ∀ k ∈ s.triggered, k.2.2.isRenewal = true ∧ (s.db.rules.get k.1).isSome = true
  once : ∀ id rule, s.db.rules.get id = some rule → rule.triggerMode = "once" →
    ∀ k : StateKey, k.1 = id → s.triggered.count k ≤ 1

theorem inv_init (jobs : J) : Inv (St.init jobs) := by
  refine ⟨fun k _ => by simp [St.init], fun k hk => ?_, fun id rule hrule => ?_⟩
  · cases hk
  · cases hrule

theorem RowStep.inv {s s' : St J} {t a : List StateKey} (hstep : RowStep s s' t a) (h : Inv s) : Inv s' := by
  have hkeep : ∀ id, (s.db.rules.get id).isSome = true → (s'.db.rules.get id).isSome = true := by
    intro id hid
    obtain ⟨rule, hrule⟩ := Option.isSome_iff_exists.1 hid
    obtain ⟨rule', hrule', -⟩ := hstep.kept id rule hrule
    rw [hrule']
    rfl
  refine ⟨fun k hk => ?_, fun k hk => ?_, fun id rule' hrule' hmode' k hk => ?_⟩
  · rw [hstep.present k hk, h.present k hk, hstep.triggered, hstep.adopted, List.mem_append, List.mem_append]
    tauto
  · rw [hstep.triggered] at hk
    rcases List.mem_append.1 hk with hk | hk
    · exact ⟨(h.known k hk).1, hkeep _ (h.known k hk).2⟩
    · obtain ⟨rule, hrule, -⟩ := hstep.once k hk
      exact ⟨hstep.renewal k hk, hkeep _ (by rw [hrule]; rfl)⟩
  · subst hk
    rw [hstep.triggered, List.count_append]
    -- the rule as it was before the step has the same trigger mode, unless it is new
    have hbefore : k ∈ s.triggered ∨ k ∈ t → ∃ rule, s.db.rules.get k.1 = some rule ∧ rule.triggerMode = "once" := by
      intro hmem
      have hsome : (s.db.rules.get k.1).isSome = true := by
        rcases hmem with hmem | hmem
        · exact (h.known k hmem).2
        · obtain ⟨rule, hrule, -⟩ := hstep.once k hmem
          rw [hrule]
          rfl
      obtain ⟨rule, hrule⟩ := Option.isSome_iff_exists.1 hsome
      obtain ⟨rule'', hrule'', hmode⟩ := hstep.kept k.1 rule hrule
      rw [hrule'] at hrule''
      cases hrule''
      exact ⟨rule, hrule, hmode.symm.trans hmode'⟩
    by_cases hnew : k ∈ t
    · obtain ⟨rule, hrule, hmode⟩ := hbefore (Or.inr hnew)
      obtain ⟨rule₂, hrule₂, hfree⟩ := hstep.once k hnew
      rw [hrule] at hrule₂
      cases hrule₂
      have hold : k ∉ s.triggered := by
        intro hmem
        have hrow := (h.present k (hstep.renewal k hnew)).2 (Or.inl hmem)
        rw [hfree hmode] at hrow
        cases hrow
      rw [List.count_eq_zero.2 hold, zero_add]
      exact List.nodup_iff_count_le_one.1 hstep.single k
    · rw [List.count_eq_zero.2 hnew, add_zero]
      by_cases hold : k ∈ s.triggered
      · obtain ⟨rule, hrule, hmode⟩ := hbefore (Or.inl hold)
        exact h.once k.1 rule hrule hmode k rfl
      · rw [List.count_eq_zero.2 hold]
        exact Nat.zero_le 1

theorem run_inv {s : St J} (h : Inv s) (ops : List (Op J)) : Inv (run C s ops) := by
  induction ops generalizing s with
  | nil => exact h
  | cons op ops ih =>
    obtain ⟨t, a, hstep⟩ := step_rows (C := C) s op
    exact ih (hstep.inv h)

/-- the open reminders after an evaluation are those of the occurrence -/
theorem OccurrenceSpec.open_row {db : Db J} {rule : AlertRule} {items : List AlertRuleItem} {model : Renewal.Server}
    {occurrence : ℕ} {otherConditions : Bool} {now : ℤ} {e : Evaluated J}
    (h : OccurrenceSpec C db rule items model occurrence otherConditions now e) {r : AlertState} (hr : r ∈ e.db.states)
    (hopen : isOpenReminder rule.id model.id r = true) : r.eventKey = .renewal occurrence := by
  by_contra hne
  have hkey : r.key ≠ (rule.id, model.id, .renewal occurrence) := by
    intro hk
    exact hne (congrArg (fun k : StateKey => k.2.2) hk)
  obtain ⟨resolvedAt, hrow⟩ := h.others r.key hkey
  rw [Table.get_key hr] at hrow
  obtain ⟨r₀, -, hr₀⟩ := Option.map_eq_some_iff.1 hrow.symm
  split_ifs at hr₀ with hother
  · -- a closed row is not open
    rw [← hr₀] at hopen
    simp [isOpenReminder, closeRow] at hopen
  · rw [hr₀] at hother
    apply hother
    simp [isOther, hopen, hne]

end Runs

/-- **Reminders are sent once.** In every state `s` that any interleaving reaches, for every rule in once mode:
- no occurrence was answered `triggered` twice;
- a committed evaluation, on a rule that is enabled, covers the server and is what the caller's snapshot says, answers
  `triggered` when all conditions match, the server is outside maintenance and the occurrence is neither notified nor
  adopted; and after it the only open reminder of the rule and the server is the current occurrence's. -/
theorem reminders_once {J : Type} (C : Crates) (jobs : J) (ops : List (Op J)) :
    let s := run C (St.init jobs) ops
    ∀ id rule, s.db.rules.get id = some rule → rule.triggerMode = "once" →
      (∀ serverId occurrence, s.triggered.count (id, serverId, .renewal occurrence) ≤ 1) ∧
      (∀ (call : Call J) (e : Evaluated J) (model : Renewal.Server) (occurrence : ℕ),
        s.evaluate C call = some e → call.snapshot.id = id →
        e.db.servers.get call.serverId = some model →
        (RenewalState.fromServer model).occurrenceId = some occurrence →
        rule.enabled = true → ruleCoversServer rule call.serverId = true →
        rule.rulesJson = call.snapshot.rulesJson → rule.notificationGroupId = call.snapshot.notificationGroupId →
        rule.name = call.snapshot.name →
        (isMatched C model call.snapshot.items call.otherConditions call.now = true →
          isInMaintenanceAt s.db.maintenances call.serverId call.now = false →
          (id, call.serverId, .renewal occurrence) ∉ s.triggered →
          (id, call.serverId, .renewal occurrence) ∉ s.adopted → e.outcome = some .triggered) ∧
        (∀ r ∈ e.db.states, isOpenReminder id call.serverId r = true → r.eventKey = .renewal occurrence ∧
          ∀ r' ∈ e.db.states, isOpenReminder id call.serverId r' = true → r' = r)) := by
  intro s id rule hrule hmode
  have h : Inv s := run_inv (inv_init jobs) ops
  refine ⟨fun serverId occurrence => h.once id rule hrule hmode _ rfl, ?_⟩
  intro call e model occurrence he hid hmodel hocc henabled hcovers hjson hgroup hname
  have hcurrent : currentRule s.db call.snapshot call.serverId = some rule := by
    unfold currentRule
    rw [hid, hrule]
    simp [henabled, hcovers, hjson, hgroup, hname]
  obtain ⟨model', hid', hget, -, hcases⟩ := evaluate_cases he
  rw [hmodel] at hget
  cases hget
  rcases hcases with ⟨hnone, -⟩ | ⟨hnone, -⟩ | ⟨rule', occurrence', hrule', hocc', hspec⟩
  · rw [hcurrent] at hnone
    cases hnone
  · rw [hocc] at hnone
    cases hnone
  · rw [hcurrent] at hrule'
    cases hrule'
    rw [hocc] at hocc'
    cases hocc'
    have hruleid : rule.id = id := (Table.get_eq_some.1 hrule).2
    have hopen : ∀ r ∈ e.db.states, isOpenReminder id call.serverId r = true → r.eventKey = .renewal occurrence := by
      intro r hr ho
      rw [← hruleid, ← hid'] at ho
      exact hspec.open_row hr ho
    refine ⟨fun hmatch hmaint hnew hnotadopted => ?_, fun r hr ho => ⟨hopen r hr ho, fun r' hr' ho' => ?_⟩⟩
    · refine hspec.fires hmatch (by rw [hid']; exact hmaint) ?_
      rw [hruleid, hid', ← Option.not_isSome_iff_eq_none]
      intro hsome
      rcases (h.present (id, call.serverId, .renewal occurrence) rfl).1 hsome with hmem | hmem
      · exact hnew hmem
      · exact hnotadopted hmem
    · have hk := hopen r hr ho
      have hk' := hopen r' hr' ho'
      simp only [isOpenReminder, Bool.and_eq_true, beq_iff_eq] at ho ho'
      refine Table.mem_inj hr' hr ?_
      simp only [AlertState.key, hk, hk', ho.1.1.1, ho.1.1.2, ho'.1.1.1, ho'.1.1.2]

/-! ## A stale snapshot -/

/-- a rule that was renamed after the caller had read it -/
def renamedRule : AlertRule :=
  ⟨1, "renewals", true, "[\x7b\"rule_type\":\"expiration\"\x7d]", [⟨"expiration", none⟩], "once", none, "all", []⟩

def staleCall : Call Unit where
  evaluator := 0
  snapshot := { renamedRule with name := "expiry" }
  serverId := 1
  otherConditions := true
  now := 0
  ids := 1
  enqueue := fun _ _ jobs => some jobs
  commits := true

/-- a server that expires on 1970-01-01 -/
def expiringServer : Renewal.Server := ⟨1, some 0, some ⟨false, .confirmed, some 1, some 0, "UTC", some 0⟩, none⟩

/-- the rule is enabled, covers the server and is in once mode, the occurrence is new, everything matches and there is no
maintenance; the call commits, and is silent -/
theorem stale_snapshot_silent :
    let s := run utcCrates (St.init ()) [.addServer expiringServer, .addRule renamedRule]
    ∃ e, s.evaluate utcCrates staleCall = some e ∧ e.outcome = some .silent ∧
      s.db.rules.get 1 = some renamedRule ∧ renamedRule.enabled = true ∧ ruleCoversServer renamedRule 1 = true ∧
      e.db.servers.get 1 = some expiringServer ∧ (RenewalState.fromServer expiringServer).occurrenceId = some 0 ∧
      isMatched utcCrates expiringServer renamedRule.items true 0 = true ∧
      isInMaintenanceAt s.db.maintenances 1 0 = false ∧ s.triggered = [] ∧ s.adopted = [] := by
  have hmatch : isMatched utcCrates expiringServer renamedRule.items true 0 = true := by
    simp [isMatched, renamedRule, expiringServer, RenewalState.fromServer, selectedDate, utcCrates]
  exact ⟨_, rfl, rfl, rfl, rfl, rfl, rfl, rfl, hmatch, rfl, rfl, rfl⟩

end ServerBee.Reminders
