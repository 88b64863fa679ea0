/-
Whether the jobs follow the task table (`update_task`, `delete_task`).

Of the job operations it is enough to know where they lead: a failed one changes no job (`addJob_error`, `removeJob_error`),
a successful one changes the job of its task only (`addJob_ok`, `removeJob_ok`). `delete_task` writes the table last, so its
compensation is to add the job again. `update_task` writes the table first, and its compensation converts the old row to an
active model, which has no column to write: the new row stays (`update_error_keeps_new_row`). The row is the old one exactly
when the job was replaced or the update changed nothing (`rowKept_iff`).
-/
import ServerBee.Tasks.Registration

namespace ServerBee.Tasks

open ServerBee.Lib

/-! ## Jobs of tasks -/

/-- the expression of the job that is registered for a task -/
def registered (s : State) (id : String) : Option String := (s.jobMap id).bind s.scheduler

/-- a task has at most one job, and `job_map` names no job that is gone -/
structure Kept (s : State) : Prop where
  key : ∀ id t, s.rows id = some t → t.id = id
  live : ∀ id job, s.jobMap id = some job → (s.scheduler job).isSome
  below : ∀ id job, s.jobMap id = some job → job < s.fresh
  one : ∀ id id' job, s.jobMap id = some job → s.jobMap id' = some job → id = id'

def Task.scheduled (t : Task) : Prop := t.taskType = "scheduled" ∧ t.enabled = true

/-- a job is registered iff the row exists, is scheduled and enabled, and its expression is the stored one -/
structure Agrees (s : State) (id : String) : Prop where
  job_iff : (registered s id).isSome ↔ ∃ t, s.rows id = some t ∧ t.scheduled
  expression : ∀ t expression, s.rows id = some t → registered s id = some expression → t.cronExpression = some expression

section Jobs

variable {cron : Cron} {fails : Bool} {task : Task} {id : String} {s s' : State} {e : String}

/-- the state with a new job of a task -/
def State.withJob (s : State) (id expression : String) : State :=
  { s with
    scheduler := Function.update s.scheduler s.fresh (some expression)
    jobMap := Function.update s.jobMap id (some s.fresh)
    fresh := s.fresh + 1 }

/-- the scheduler takes the job of a task -/
def Accepted (cron : Cron) (fails : Bool) (task : Task) : Prop :=
  fails = false ∧ ∃ expression, task.cronExpression = some expression ∧ cron.valid expression = true

/-- a task without a job gets one, or nothing happens -/
theorem addJob_cases (cron : Cron) (fails : Bool) (task : Task) (s : State) (hfree : s.jobMap task.id = none) :
    (Accepted cron fails task ∧ ∃ expression, task.cronExpression = some expression ∧
      addJob cron fails task s = (.ok (), s.withJob task.id expression)) ∨
    (¬ Accepted cron fails task ∧ ∃ e, addJob cron fails task s = (.error e, s)) := by
  unfold addJob Accepted
  rw [if_neg (by simp [hfree])]
  cases hcron : task.cronExpression with
  | none =>
    refine Or.inr ⟨?_, _, rfl⟩
    rintro ⟨-, expression, hno, -⟩
    cases hno
  | some expression =>
    dsimp only
    cases hvalid : cron.valid expression with
    | false =>
      refine Or.inr ⟨?_, _, if_pos rfl⟩
      rintro ⟨-, expression', hsome, hvalid'⟩
      rw [← Option.some.inj hsome, hvalid] at hvalid'
      cases hvalid'
    | true =>
      rw [if_neg (by simp)]
      cases fails with
      | true =>
        refine Or.inr ⟨?_, _, if_pos rfl⟩
        rintro ⟨hno, -⟩
        cases hno
      | false => exact Or.inl ⟨⟨rfl, expression, rfl, hvalid⟩, expression, rfl, if_neg (by simp)⟩

theorem Kept.withJob (hk : Kept s) (id expression : String) :
    Kept (s.withJob id expression) ∧ registered (s.withJob id expression) id = some expression ∧
      ∀ id', id' ≠ id → registered (s.withJob id expression) id' = registered s id' := by
  have hother (id' : String) (hid : id' ≠ id) : Function.update s.jobMap id (some s.fresh) id' = s.jobMap id' :=
    Function.update_of_ne hid _ _
  have hold (id : String) (job : ℕ) (hjob : s.jobMap id = some job) :
      Function.update s.scheduler s.fresh (some expression) job = s.scheduler job :=
    Function.update_of_ne (hk.below id job hjob).ne _ _
  refine ⟨⟨hk.key, ?_, ?_, ?_⟩, ?_, ?_⟩
  · intro id' job hjob
    change Function.update s.jobMap id (some s.fresh) id' = some job at hjob
    change (Function.update s.scheduler s.fresh (some expression) job).isSome
    by_cases hid : id' = id
    · rw [hid, Function.update_self] at hjob
      obtain rfl := Option.some.inj hjob
      rw [Function.update_self]
      rfl
    · rw [hother id' hid] at hjob
      rw [hold id' job hjob]
      exact hk.live id' job hjob
  · intro id' job hjob
    change Function.update s.jobMap id (some s.fresh) id' = some job at hjob
    change job < s.fresh + 1
    by_cases hid : id' = id
    · rw [hid, Function.update_self] at hjob
      obtain rfl := Option.some.inj hjob
      omega
    · rw [hother id' hid] at hjob
      have := hk.below id' job hjob
      omega
  · intro id₁ id₂ job h₁ h₂
    change Function.update s.jobMap id (some s.fresh) id₁ = some job at h₁
    change Function.update s.jobMap id (some s.fresh) id₂ = some job at h₂
    by_cases hid₁ : id₁ = id
    · by_cases hid₂ : id₂ = id
      · rw [hid₁, hid₂]
      · rw [hid₁, Function.update_self] at h₁
        rw [hother id₂ hid₂] at h₂
        have := hk.below id₂ job h₂
        obtain rfl := Option.some.inj h₁
        omega
    · rw [hother id₁ hid₁] at h₁
      by_cases hid₂ : id₂ = id
      · rw [hid₂, Function.update_self] at h₂
        have := hk.below id₁ job h₁
        obtain rfl := Option.some.inj h₂
        omega
      · rw [hother id₂ hid₂] at h₂
        exact hk.one id₁ id₂ job h₁ h₂
  · simp [registered, State.withJob]
  · intro id' hid
    change (Function.update s.jobMap id (some s.fresh) id').bind (Function.update s.scheduler s.fresh (some expression)) = _
    rw [hother id' hid]
    unfold registered
    cases hjob : s.jobMap id' with
    | none => rfl
    | some job => exact hold id' job hjob

/-- the state without the job and the run of a task -/
def State.withoutJob (s : State) (id : String) : State :=
  match s.jobMap id with
  | none => { s with running := Function.update s.running id false }
  | some job =>
    { s with
      running := Function.update s.running id false
      scheduler := Function.update s.scheduler job none
      jobMap := Function.update s.jobMap id none }

/-- the state without the run of a task -/
def State.cancelled (s : State) (id : String) : State := { s with running := Function.update s.running id false }

/-- either the job is gone, or every job stays -/
theorem removeJob_cases (fails : Bool) (id : String) (s : State) :
    ((s.jobMap id ≠ none → fails = false) ∧ removeJob fails id s = (.ok (), s.withoutJob id)) ∨
    (¬ (s.jobMap id ≠ none → fails = false) ∧ ∃ e, removeJob fails id s = (.error e, s.cancelled id)) := by
  unfold removeJob State.withoutJob
  cases hjob : s.jobMap id with
  | none => exact Or.inl ⟨fun hno => absurd rfl hno, rfl⟩
  | some job =>
    cases fails with
    | false => exact Or.inl ⟨fun _ => rfl, rfl⟩
    | true => exact Or.inr ⟨by simp, _, rfl⟩

theorem withoutJob_rows : (s.withoutJob id).rows = s.rows := by
  unfold State.withoutJob
  split <;> rfl

theorem Kept.withoutJob (hk : Kept s) (id : String) :
    Kept (s.withoutJob id) ∧ (s.withoutJob id).jobMap id = none ∧
      ∀ id', id' ≠ id → registered (s.withoutJob id) id' = registered s id' := by
  unfold State.withoutJob
  cases hjob : s.jobMap id with
  | none => exact ⟨⟨hk.key, hk.live, hk.below, hk.one⟩, hjob, fun _ _ => rfl⟩
  | some job =>
    have hother (id' : String) (hid : id' ≠ id) : Function.update s.jobMap id none id' = s.jobMap id' :=
      Function.update_of_ne hid _ _
    have hmapped (id' : String) (job' : ℕ) (h : Function.update s.jobMap id none id' = some job') :
        id' ≠ id ∧ s.jobMap id' = some job' ∧ job' ≠ job := by
      by_cases hid : id' = id
      · rw [hid, Function.update_self] at h
        cases h
      · rw [hother id' hid] at h
        refine ⟨hid, h, fun heq => hid ?_⟩
        rw [heq] at h
        exact hk.one id' id job h hjob
    refine ⟨⟨hk.key, ?_, ?_, ?_⟩, Function.update_self .., ?_⟩
    · intro id' job' h
      obtain ⟨-, h, hne⟩ := hmapped id' job' h
      change (Function.update s.scheduler job none job').isSome
      rw [Function.update_of_ne hne]
      exact hk.live id' job' h
    · intro id' job' h
      exact hk.below id' job' (hmapped id' job' h).2.1
    · intro id₁ id₂ job' h₁ h₂
      exact hk.one id₁ id₂ job' (hmapped id₁ job' h₁).2.1 (hmapped id₂ job' h₂).2.1
    · intro id' hid
      change (Function.update s.jobMap id none id').bind (Function.update s.scheduler job none) = _
      rw [hother id' hid]
      unfold registered
      cases hjob' : s.jobMap id' with
      | none => rfl
      | some job' =>
        have hne : job' ≠ job := fun heq => hid (hk.one id' id job (by rw [hjob', heq]) hjob)
        exact Function.update_of_ne hne _ _

/-- an update replaces the job of the row -/
def Replaced (cron : Cron) (f : Faults) (row : Task) (s : State) : Prop :=
  (s.jobMap row.id ≠ none → f.remove = false) ∧ (row.enabled = true → Accepted cron f.add row)

/-- either the job is the one of the row, or it is the old one or none -/
theorem updateJob_cases (cron : Cron) (f : Faults) (row : Task) (s : State) (hk : Kept s) :
    (Replaced cron f row s ∧ ∃ s', updateJob cron f row s = (.ok (), s') ∧ Kept s' ∧ s'.rows = s.rows ∧
      registered s' row.id = (if row.enabled then row.cronExpression else none) ∧
      ∀ id, id ≠ row.id → registered s' id = registered s id) ∨
    (¬ Replaced cron f row s ∧ ∃ e s', updateJob cron f row s = (.error e, s') ∧
      (s' = s.cancelled row.id ∨ row.enabled = true ∧ s' = s.withoutJob row.id)) := by
  unfold updateJob Replaced
  rcases removeJob_cases f.remove row.id s with ⟨hremove, heq⟩ | ⟨hremove, e, heq⟩
  · rw [heq]
    dsimp only
    obtain ⟨hk', hnone, hother⟩ := hk.withoutJob row.id
    cases hen : row.enabled with
    | false =>
      refine Or.inl ⟨⟨hremove, fun hno => by cases hno⟩, _, rfl, hk', withoutJob_rows, ?_, hother⟩
      simp [registered, hnone]
    | true =>
      rcases addJob_cases cron f.add row _ hnone with ⟨hadd, expression, hcron, heq⟩ | ⟨hadd, e, heq⟩
      · obtain ⟨hk'', hself, hother'⟩ := hk'.withJob row.id expression
        refine Or.inl ⟨⟨hremove, fun _ => hadd⟩, _, heq, hk'', withoutJob_rows, by rw [hself, hcron]; rfl, ?_⟩
        intro id hid
        rw [hother' id hid, hother id hid]
      · exact Or.inr ⟨fun h => hadd (h.2 rfl), e, _, heq, Or.inr ⟨rfl, rfl⟩⟩
  · rw [heq]
    exact Or.inr ⟨fun h => hremove h.1, e, _, rfl, Or.inl rfl⟩

/-- what restoring a job leads to; the table is not touched -/
theorem restored_spec (cron : Cron) (f : Faults) (e : String) (task : Task) (s : State) (hk : Kept s) :
    (restored cron f e task s).1.result = .error e ∧ (restored cron f e task s).1.rowLost = false ∧
      (restored cron f e task s).2.rows = s.rows ∧ Kept (restored cron f e task s).2 ∧
      (∀ id, id ≠ task.id → registered (restored cron f e task s).2 id = registered s id) ∧
      (s.jobMap task.id ≠ none ∨ ¬ task.scheduled → registered (restored cron f e task s).2 task.id = registered s task.id) ∧
      ((restored cron f e task s).1.jobLost = false → s.jobMap task.id = none → task.scheduled →
        ∃ expression, task.cronExpression = some expression ∧
          registered (restored cron f e task s).2 task.id = some expression) := by
  unfold restored restoreJob
  by_cases hneeds : task.taskType = "scheduled" ∧ task.enabled = true ∧ s.jobMap task.id = none
  · rw [if_pos hneeds]
    have hscheduled : task.scheduled := ⟨hneeds.1, hneeds.2.1⟩
    have hnot : ¬ (s.jobMap task.id ≠ none ∨ ¬ task.scheduled) := by
      rintro (hno | hno)
      · exact hno hneeds.2.2
      · exact hno hscheduled
    rcases addJob_cases cron f.restoreAdd task s hneeds.2.2 with ⟨-, expression, hcron, heq⟩ | ⟨-, e', heq⟩
    · obtain ⟨hk', hself, hother⟩ := hk.withJob task.id expression
      rw [heq]
      exact ⟨rfl, rfl, rfl, hk', hother, fun hno => absurd hno hnot, fun _ _ _ => ⟨expression, hcron, hself⟩⟩
    · rw [heq]
      exact ⟨rfl, rfl, rfl, hk, fun _ _ => rfl, fun _ => rfl, fun hno => by cases hno⟩
  · rw [if_neg hneeds]
    exact ⟨rfl, rfl, rfl, hk, fun _ _ => rfl, fun _ => rfl, fun _ hnone hs => absurd ⟨hs.1, hs.2, hnone⟩ hneeds⟩

end Jobs

/-! ## Agreement -/

section Agreement

variable {s s' : State} {id : String} {t : Task}

/-- agreement speaks of the row and of the registered expression only -/
theorem Agrees.congr (h : Agrees s id) (hrow : s'.rows id = s.rows id) (hjob : registered s' id = registered s id) :
    Agrees s' id :=
  ⟨by rw [hjob, hrow]; exact h.job_iff, fun t expression ht hexp => h.expression t expression (by rwa [← hrow]) (by rwa [← hjob])⟩

/-- a scheduled row and the job of its expression -/
theorem Agrees.of_job {expression : String} (hrow : s.rows id = some t) (hscheduled : t.scheduled)
    (hcron : t.cronExpression = some expression) (hjob : registered s id = some expression) : Agrees s id := by
  refine ⟨⟨fun _ => ⟨t, hrow, hscheduled⟩, fun _ => by rw [hjob]; rfl⟩, fun t' expression' ht' hexp => ?_⟩
  rw [hrow] at ht'
  rw [hjob] at hexp
  rw [← Option.some.inj ht', ← Option.some.inj hexp, hcron]

/-- no job, and no row that wants one -/
theorem Agrees.of_none (hrow : ∀ t, s.rows id = some t → ¬ t.scheduled) (hjob : registered s id = none) : Agrees s id := by
  refine ⟨⟨fun hsome => ?_, fun ⟨t, ht, hs⟩ => absurd hs (hrow t ht)⟩, fun _ _ _ hno => ?_⟩
  · rw [hjob] at hsome
    cases hsome
  · rw [hjob] at hno
    cases hno

theorem registered_none (h : s.jobMap id = none) : registered s id = none := by
  simp [registered, h]

/-- a job that is restored is the one of its row -/
theorem restored_agrees {cron : Cron} {f : Faults} {e : String} (hk : Kept s) (hid : t.id = id) (hrow : s.rows id = some t)
    (hold : s.jobMap id ≠ none → Agrees s id) (hrestored : (restored cron f e t s).1.jobLost = false) :
    Agrees (restored cron f e t s).2 id := by
  subst hid
  obtain ⟨-, -, hrows, -, -, hkeeps, hadds⟩ := restored_spec cron f e t s hk
  by_cases hjob : s.jobMap t.id = none
  · by_cases hs : t.scheduled
    · obtain ⟨expression, hcron, hregistered⟩ := hadds hrestored hjob hs
      exact Agrees.of_job (by rw [hrows, hrow]) hs hcron hregistered
    · refine Agrees.of_none (fun t' ht' => ?_) (by rw [hkeeps (Or.inr hs), registered_none hjob])
      rw [hrows, hrow] at ht'
      rwa [← Option.some.inj ht']
  · exact (hold hjob).congr (by rw [hrows]) (hkeeps (Or.inl hjob))

end Agreement

/-! ## The row that an update writes -/

theorem bind_ok {α β : Type} {x : Except String α} {f : α → Except String β} {b : β} (h : (x >>= f) = .ok b) :
    ∃ a, x = .ok a ∧ f a = .ok b := by
  cases x with
  | error e => cases h
  | ok a => exact ⟨a, rfl, h⟩

/-- no update sets the type -/
theorem apply_taskType {cron : Cron} {input : UpdateTaskRequest} {existing : Task} {model : ActiveTask}
    (h : input.apply cron existing = .ok model) : model.taskType = .unchanged existing.taskType := by
  obtain ⟨m₁, h₁, h⟩ := bind_ok h
  obtain ⟨m₂, h₂, h⟩ := bind_ok h
  obtain ⟨m₃, h₃, h⟩ := bind_ok h
  have hcron : m₁.taskType = .unchanged existing.taskType := by
    unfold setCron at h₁
    split at h₁
    · obtain rfl := Except.ok.inj h₁
      rfl
    · split_ifs at h₁
      obtain rfl := Except.ok.inj h₁
      rfl
  have henabled : (setEnabled cron input existing m₁).taskType = m₁.taskType := by
    unfold setEnabled
    split
    · rfl
    · rfl
    · split <;> rfl
  have htimeout : m₂.taskType = (setEnabled cron input existing m₁).taskType := by
    unfold setTimeout at h₂
    split at h₂
    · obtain rfl := Except.ok.inj h₂
      rfl
    · split_ifs at h₂
      obtain rfl := Except.ok.inj h₂
      rfl
  have hcount : m₃.taskType = m₂.taskType := by
    unfold setRetryCount at h₃
    split at h₃
    · obtain rfl := Except.ok.inj h₃
      rfl
    · split_ifs at h₃
      obtain rfl := Except.ok.inj h₃
      rfl
  have hinterval : model.taskType = m₃.taskType := by
    unfold setRetryInterval at h
    split at h
    · obtain rfl := Except.ok.inj h
      rfl
    · split_ifs at h
      obtain rfl := Except.ok.inj h
      rfl
  rw [hinterval, hcount, htimeout, henabled, hcron]

/-! ## One call -/

/-- the failures that are logged and not answered -/
def Compensated (s : State) (op : Op) : Prop := (call s op).1.rowLost = false ∧ (call s op).1.jobLost = false

/-- a failed call whose compensation wrote the table leaves the table as it was -/
def RowKept (s : State) (op : Op) : Prop :=
  ∀ e, (call s op).1.result = .error e → (call s op).1.rowLost = false → (step s op).rows = s.rows

/-- the statements of an update up to the write -/
structure Written (cron : Cron) (f : Faults) (id : String) (input : UpdateTaskRequest) (s : State) (existing : Task)
    (model : ActiveTask) : Prop where
  found : f.find = false
  row : s.rows id = some existing
  valid : input.apply cron existing = .ok model
  wrote : f.write = false

/-- an update replaces the job of the row that it writes, or its rollback fails, or it writes the row that was there -/
def Undisturbed (s : State) : Op → Prop
  | .update cron f id input => ∀ existing model, Written cron f id input s existing model →
      (model.update existing).taskType = "scheduled" → f.rollback = false →
      Replaced cron f (model.update existing) s ∨ model.update existing = existing
  | .delete _ _ _ => True

section Call

variable {cron : Cron} {f : Faults} {id : String} {input : UpdateTaskRequest} {s : State}

/-- the state after the row of an update is written -/
def State.withRow (s : State) (id : String) (row : Task) : State := { s with rows := Function.update s.rows id (some row) }

/-- an update that does not write changes nothing; after the write it is the job that decides -/
theorem updateTask_cases (cron : Cron) (f : Faults) (id : String) (input : UpdateTaskRequest) (s : State) :
    ((∀ existing model, ¬ Written cron f id input s existing model) ∧
      ∃ e, updateTask cron f id input s = (.of (.error e), s)) ∨
    ∃ existing model, Written cron f id input s existing model ∧ updateTask cron f id input s =
      (if (model.update existing).taskType = "scheduled" then
        match updateJob cron f (model.update existing) (s.withRow id (model.update existing)) with
        | (.ok (), s) => (.of (.ok ()), s)
        | (.error e, s) =>
          if f.rollback then (⟨.error e, true, false⟩, s)
          else restored cron f e (model.update existing) (s.withRow id (model.update existing))
      else (.of (.ok ()), s.withRow id (model.update existing))) := by
  unfold updateTask
  cases hfind : f.find with
  | true => exact Or.inl ⟨fun _ _ h => (by cases hfind.symm.trans h.found), _, rfl⟩
  | false =>
    rw [if_neg (by simp)]
    cases hrow : s.rows id with
    | none => exact Or.inl ⟨fun _ _ h => (by cases hrow.symm.trans h.row), _, rfl⟩
    | some existing =>
      dsimp only
      cases hvalid : input.apply cron existing with
      | error e =>
        refine Or.inl ⟨fun existing' _ h => ?_, _, rfl⟩
        obtain rfl := Option.some.inj (hrow.symm.trans h.row)
        cases hvalid.symm.trans h.valid
      | ok model =>
        dsimp only
        cases hwrite : f.write with
        | true => exact Or.inl ⟨fun _ _ h => (by cases hwrite.symm.trans h.wrote), _, rfl⟩
        | false => exact Or.inr ⟨existing, model, ⟨hfind, hrow, hvalid, hwrite⟩, rfl⟩

/-- the ends of an update -/
inductive UpdateEnd (cron : Cron) (f : Faults) (id : String) (input : UpdateTaskRequest) (s : State) : Outcome × State → Prop where
  | refused (e : String) (hnone : ∀ existing model, ¬ Written cron f id input s existing model) :
    UpdateEnd cron f id input s (.of (.error e), s)
  | plain {existing : Task} {model : ActiveTask} (hw : Written cron f id input s existing model)
    (htype : existing.taskType ≠ "scheduled") :
    UpdateEnd cron f id input s (.of (.ok ()), s.withRow id (model.update existing))
  | replaced {existing : Task} {model : ActiveTask} {s' : State} (hw : Written cron f id input s existing model)
    (htype : existing.taskType = "scheduled") (hreplaced : Replaced cron f (model.update existing) s) (hk : Kept s')
    (hrows : s'.rows = (s.withRow id (model.update existing)).rows)
    (hself : registered s' id = if (model.update existing).enabled then (model.update existing).cronExpression else none)
    (hother : ∀ id', id' ≠ id → registered s' id' = registered s id') : UpdateEnd cron f id input s (.of (.ok ()), s')
  | failed {existing : Task} {model : ActiveTask} {o : Outcome} {s' : State} {e : String}
    (hw : Written cron f id input s existing model) (htype : existing.taskType = "scheduled")
    (hreplaced : ¬ Replaced cron f (model.update existing) s) (hresult : o.result = .error e) (hlost : o.rowLost = f.rollback)
    (hk : Kept s') (hrows : s'.rows = (s.withRow id (model.update existing)).rows)
    (hself : o.rowLost = false → o.jobLost = false → (s'.rows = s.rows → Agrees s id → Agrees s' id))
    (hother : ∀ id', id' ≠ id → registered s' id' = registered s id') : UpdateEnd cron f id input s (o, s')

theorem Kept.withRow (hk : Kept s) {row : Task} (hid : row.id = id) : Kept (s.withRow id row) := by
  refine ⟨fun id' t ht => ?_, hk.live, hk.below, hk.one⟩
  change Function.update s.rows id (some row) id' = some t at ht
  by_cases h : id' = id
  · rw [h, Function.update_self] at ht
    rw [← Option.some.inj ht, hid, h]
  · rw [Function.update_of_ne h] at ht
    exact hk.key id' t ht

theorem Kept.cancelled (hk : Kept s) : Kept (s.cancelled id) := ⟨hk.key, hk.live, hk.below, hk.one⟩

theorem updateTask_end (cron : Cron) (f : Faults) (id : String) (input : UpdateTaskRequest) (hk : Kept s) :
    UpdateEnd cron f id input s (updateTask cron f id input s) := by
  rcases updateTask_cases cron f id input s with ⟨hnone, e, heq⟩ | ⟨existing, model, hw, heq⟩
  · rw [heq]
    exact .refused e hnone
  · have htype : (model.update existing).taskType = existing.taskType := by
      rw [ActiveTask.update, apply_taskType hw.valid]
      rfl
    have hid : (model.update existing).id = id := hk.key id existing hw.row
    rw [heq, htype]
    by_cases hscheduled : existing.taskType = "scheduled"
    · rw [if_pos hscheduled]
      have hk₁ : Kept (s.withRow id (model.update existing)) := hk.withRow hid
      rcases updateJob_cases cron f (model.update existing) _ hk₁ with
        ⟨hreplaced, s', hjob, hk', hrows, hself, hother⟩ | ⟨hreplaced, e, s', hjob, hs'⟩
      · rw [hjob]
        rw [hid] at hself hother
        exact .replaced hw hscheduled hreplaced hk' hrows hself hother
      · rw [hjob]
        dsimp only
        have hk' : Kept s' := by
          rcases hs' with rfl | ⟨-, rfl⟩
          · exact hk₁.cancelled
          · exact (hk₁.withoutJob _).1
        have hrows : s'.rows = (s.withRow id (model.update existing)).rows := by
          rcases hs' with rfl | ⟨-, rfl⟩
          · rfl
          · exact withoutJob_rows
        have hother (id' : String) (hne : id' ≠ id) : registered s' id' = registered s id' := by
          rcases hs' with rfl | ⟨-, rfl⟩
          · rfl
          · exact (hk₁.withoutJob _).2.2 id' (by rwa [hid])
        have hold (hjob : s'.jobMap id ≠ none) : registered s' id = registered s id := by
          rcases hs' with rfl | ⟨-, rfl⟩
          · rfl
          · rw [hid] at hjob
            exact absurd (hk₁.withoutJob _).2.1 hjob
        by_cases hrollback : f.rollback = true
        · rw [if_pos hrollback]
          exact .failed hw hscheduled hreplaced rfl hrollback.symm hk' hrows (fun hno => by cases hno) hother
        · rw [if_neg hrollback]
          have hk₂ : Kept (s'.withRow id (model.update existing)) := hk'.withRow hid
          have hrows₂ : (s'.withRow id (model.update existing)).rows = (s.withRow id (model.update existing)).rows := by
            change Function.update s'.rows id _ = _
            rw [hrows]
            exact Function.update_idem ..
          obtain ⟨hresult, hlost, hrows₃, hk₃, hother₃, -, -⟩ := restored_spec cron f e (model.update existing) _ hk₂
          refine .failed hw hscheduled hreplaced hresult ?_ hk₃ (hrows₃.trans hrows₂) ?_ ?_
          · exact hlost.trans (Bool.eq_false_of_not_eq_true hrollback).symm
          · intro _ hrestored hsame hagrees
            have hrow : (s'.withRow id (model.update existing)).rows id = some (model.update existing) := Function.update_self ..
            have hback : (s'.withRow id (model.update existing)).rows = s.rows := hrows₃.symm.trans hsame
            exact restored_agrees hk₂ hid hrow (fun hjob => hagrees.congr (by rw [hback]) (hold hjob)) hrestored
          · intro id' hne
            exact (hother₃ id' (by rwa [hid])).trans (hother id' hne)
    · rw [if_neg hscheduled]
      exact .plain hw hscheduled

theorem Written.inj {existing existing' : Task} {model model' : ActiveTask} (h : Written cron f id input s existing model)
    (h' : Written cron f id input s existing' model') : existing' = existing ∧ model' = model := by
  obtain rfl := Option.some.inj (h'.row.symm.trans h.row)
  exact ⟨rfl, Except.ok.inj (h'.valid.symm.trans h.valid)⟩

theorem Written.taskType {existing : Task} {model : ActiveTask} (h : Written cron f id input s existing model) :
    (model.update existing).taskType = existing.taskType := by
  rw [ActiveTask.update, apply_taskType h.valid]
  rfl

/-- writing the row that is there changes nothing -/
theorem withRow_eq_iff {existing row : Task} (hrow : s.rows id = some existing) :
    (s.withRow id row).rows = s.rows ↔ row = existing := by
  constructor
  · intro h
    have hid : Function.update s.rows id (some row) id = s.rows id := congrFun h id
    rw [Function.update_self, hrow] at hid
    exact Option.some.inj hid
  · rintro rfl
    exact Function.update_eq_self_iff.2 hrow.symm

/-- the row is the old one exactly when the job was replaced, the rollback failed or the update changed nothing -/
theorem rowKept_update_iff (hk : Kept s) :
    RowKept s (.update cron f id input) ↔ Undisturbed s (.update cron f id input) := by
  change (∀ e, (updateTask cron f id input s).1.result = .error e → (updateTask cron f id input s).1.rowLost = false →
    (updateTask cron f id input s).2.rows = s.rows) ↔ ∀ existing model, Written cron f id input s existing model →
      (model.update existing).taskType = "scheduled" → f.rollback = false →
      Replaced cron f (model.update existing) s ∨ model.update existing = existing
  have hend := updateTask_end cron f id input hk
  generalize updateTask cron f id input s = r at hend ⊢
  cases hend with
  | refused e hnone => exact ⟨fun _ existing model hw => absurd hw (hnone existing model), fun _ _ _ _ => rfl⟩
  | plain hw htype =>
    refine ⟨fun _ existing' model' hw' hscheduled => ?_, fun _ e hno => by cases hno⟩
    obtain ⟨rfl, rfl⟩ := hw.inj hw'
    exact absurd (hw.taskType.symm.trans hscheduled) htype
  | replaced hw htype hreplaced hk' hrows hself hother =>
    refine ⟨fun _ existing' model' hw' _ _ => ?_, fun _ e hno => by cases hno⟩
    obtain ⟨rfl, rfl⟩ := hw.inj hw'
    exact Or.inl hreplaced
  | @failed existing model o s' e hw htype hreplaced hresult hlost hk' hrows hself hother =>
    constructor
    · intro hkept existing' model' hw' _ hrollback
      obtain ⟨rfl, rfl⟩ := hw.inj hw'
      refine Or.inr ((withRow_eq_iff hw.row).1 (hrows.symm.trans ?_))
      exact hkept e hresult (hlost.trans hrollback)
    · intro hdisturbed e' _ hno
      have hsame := (hdisturbed existing model hw (hw.taskType.trans htype) (hlost.symm.trans hno)).resolve_left hreplaced
      exact hrows.trans ((withRow_eq_iff hw.row).2 hsame)

/-- what one call does to the table and the jobs -/
structure CallEffect (s : State) (id : String) (r : Outcome × State) : Prop where
  kept : Kept r.2
  rows : ∀ id', id' ≠ id → r.2.rows id' = s.rows id'
  jobs : ∀ id', id' ≠ id → registered r.2 id' = registered s id'

/-- a failed deletion leaves the table as it was, and its job is there again when it could be restored -/
theorem deleteTask_end (cron : Cron) (f : Faults) (id : String) (hk : Kept s) :
    CallEffect s id (deleteTask cron f id s) ∧
      (∀ e, (deleteTask cron f id s).1.result = .error e → (deleteTask cron f id s).2.rows = s.rows) ∧
      ((deleteTask cron f id s).1.jobLost = false → Agrees s id → Agrees (deleteTask cron f id s).2 id) := by
  unfold deleteTask
  by_cases hfind : f.find = true
  · rw [if_pos hfind]
    exact ⟨⟨hk, fun _ _ => rfl, fun _ _ => rfl⟩, fun _ _ => rfl, fun _ h => h⟩
  · rw [if_neg hfind]
    rcases removeJob_cases f.remove id s with ⟨-, heq⟩ | ⟨-, e, heq⟩
    · rw [heq]
      obtain ⟨hk', hnone, hother⟩ := hk.withoutJob id
      have hrows : (s.withoutJob id).rows = s.rows := withoutJob_rows
      dsimp only
      by_cases hfails : (f.start || f.deleteResults || f.deleteTask || f.commit) = true
      · rw [if_pos hfails]
        cases hrow : s.rows id with
        | none =>
          refine ⟨⟨hk', fun _ _ => by rw [hrows], hother⟩, fun _ _ => hrows, fun _ _ => ?_⟩
          refine Agrees.of_none (fun t ht => ?_) (registered_none hnone)
          rw [hrows, hrow] at ht
          cases ht
        | some task =>
          have hid : task.id = id := hk.key id task hrow
          obtain ⟨-, -, hrows', hk'', hother', -, -⟩ := restored_spec cron f "database error" task _ hk'
          refine ⟨⟨hk'', fun id' _ => by rw [hrows', hrows], fun id' hne => ?_⟩, fun _ _ => hrows'.trans hrows, ?_⟩
          · rw [hother' id' (by rwa [hid]), hother id' hne]
          · intro hrestored _
            exact restored_agrees hk' hid (by rw [hrows, hrow]) (fun hno => absurd hnone hno) hrestored
      · rw [if_neg hfails]
        refine ⟨⟨⟨?_, hk'.live, hk'.below, hk'.one⟩, ?_, hother⟩, fun _ hno => (by cases hno), fun _ _ => ?_⟩
        · intro id' t ht
          change Function.update (s.withoutJob id).rows id none id' = some t at ht
          by_cases hid : id' = id
          · rw [hid, Function.update_self] at ht
            cases ht
          · rw [Function.update_of_ne hid] at ht
            exact hk'.key id' t ht
        · intro id' hne
          exact (Function.update_of_ne hne _ _).trans (congrFun hrows id')
        · refine Agrees.of_none (fun t ht => ?_) (registered_none hnone)
          change Function.update (s.withoutJob id).rows id none id = some t at ht
          rw [Function.update_self] at ht
          cases ht
    · rw [heq]
      exact ⟨⟨hk.cancelled, fun _ _ => rfl, fun _ _ => rfl⟩, fun _ _ => rfl, fun _ h => h.congr rfl rfl⟩

theorem updateTask_effect (cron : Cron) (f : Faults) (id : String) (input : UpdateTaskRequest) (hk : Kept s) :
    CallEffect s id (updateTask cron f id input s) := by
  have hend := updateTask_end cron f id input hk
  have hother (row : Task) (id' : String) (hne : id' ≠ id) : (s.withRow id row).rows id' = s.rows id' :=
    Function.update_of_ne hne _ _
  generalize updateTask cron f id input s = r at hend ⊢
  cases hend with
  | refused e hnone => exact ⟨hk, fun _ _ => rfl, fun _ _ => rfl⟩
  | @plain existing model hw htype =>
    have hid : (model.update existing).id = id := hk.key id existing hw.row
    exact ⟨hk.withRow hid, hother _, fun _ _ => rfl⟩
  | replaced hw htype hreplaced hk' hrows hself hjobs =>
    exact ⟨hk', fun id' hne => (congrFun hrows id').trans (hother _ id' hne), hjobs⟩
  | failed hw htype hreplaced hresult hlost hk' hrows hself hjobs =>
    exact ⟨hk', fun id' hne => (congrFun hrows id').trans (hother _ id' hne), hjobs⟩

/-- an undisturbed update keeps the job and the row together -/
theorem updateTask_agrees (cron : Cron) (f : Faults) (id : String) (input : UpdateTaskRequest) (hk : Kept s)
    (hu : Undisturbed s (.update cron f id input)) (hrow : (updateTask cron f id input s).1.rowLost = false)
    (hjob : (updateTask cron f id input s).1.jobLost = false) (h : Agrees s id) :
    Agrees (updateTask cron f id input s).2 id := by
  have hkept := (rowKept_update_iff hk).2 hu
  change ∀ e, (updateTask cron f id input s).1.result = .error e → (updateTask cron f id input s).1.rowLost = false →
    (updateTask cron f id input s).2.rows = s.rows at hkept
  have hend := updateTask_end cron f id input hk
  generalize updateTask cron f id input s = r at hend hkept hrow hjob ⊢
  cases hend with
  | refused e hnone => exact h
  | @plain existing model hw htype =>
    have hnone : registered s id = none := by
      rw [← Option.not_isSome_iff_eq_none, h.job_iff]
      rintro ⟨t, ht, hs⟩
      rw [hw.row] at ht
      exact htype (by rw [Option.some.inj ht]; exact hs.1)
    refine Agrees.of_none (fun t ht => ?_) hnone
    change Function.update s.rows id (some (model.update existing)) id = some t at ht
    rw [Function.update_self] at ht
    rw [← Option.some.inj ht]
    exact fun hs => htype (hw.taskType.symm.trans hs.1)
  | @replaced existing model s' hw htype hreplaced hk' hrows hself hother =>
    have hrow' : s'.rows id = some (model.update existing) := (congrFun hrows id).trans (Function.update_self ..)
    by_cases hen : (model.update existing).enabled = true
    · obtain ⟨-, expression, hcron, -⟩ := hreplaced.2 hen
      rw [if_pos hen, hcron] at hself
      exact Agrees.of_job hrow' ⟨hw.taskType.trans htype, hen⟩ hcron hself
    · rw [if_neg hen] at hself
      refine Agrees.of_none (fun t ht hs => hen ?_) hself
      rw [Option.some.inj (hrow'.symm.trans ht)]
      exact hs.2
  | failed hw htype hreplaced hresult hlost hk' hrows hself hother =>
    exact hself hrow hjob (hkept _ hresult hrow) h

end Call

/-! ## Runs -/

def Op.task : Op → String
  | .update _ _ id _ => id
  | .delete _ _ id => id

theorem step_effect {s : State} (hk : Kept s) (op : Op) : CallEffect s op.task (call s op) := by
  cases op with
  | update cron f id input => exact updateTask_effect cron f id input hk
  | delete cron f id => exact (deleteTask_end cron f id hk).1

theorem rowKept_iff {s : State} (hk : Kept s) (op : Op) : RowKept s op ↔ Undisturbed s op := by
  cases op with
  | update cron f id input => exact rowKept_update_iff hk
  | delete cron f id => exact ⟨fun _ => trivial, fun _ e he _ => (deleteTask_end cron f id hk).2.1 e he⟩

/-- **The jobs follow the task table where a replaced job goes through.** A call that fails with its compensation written
leaves the table as it was exactly when it is undisturbed; and along calls of a task that are undisturbed and compensated, a
job is registered for the task iff its row is scheduled and enabled, with the stored expression. -/
theorem jobs_follow_table (s : State) (hk : Kept s) (ops : List Op) :
    (Along step RowKept s ops ↔ Along step Undisturbed s ops) ∧
    ∀ id, Agrees s id → Along step (fun s op => op.task = id → Undisturbed s op ∧ Compensated s op) s ops →
      Agrees (runs step s ops) id := by
  refine ⟨along_congr (I := Kept) (fun s op hk _ => (step_effect hk op).kept) (fun s op hk => rowKept_iff hk op) hk ops, ?_⟩
  intro id h hops
  have hboth := hops.invariant (I := fun s => Kept s ∧ Agrees s id) (fun s op hs hop => ?_) ⟨hk, h⟩
  · exact hboth.2
  · obtain ⟨hk, h⟩ := hs
    have heffect := step_effect hk op
    refine ⟨heffect.kept, ?_⟩
    by_cases hid : op.task = id
    · obtain ⟨hu, hrow, hjob⟩ := hop hid
      subst hid
      cases op with
      | update cron f id input => exact updateTask_agrees cron f id input hk hu hrow hjob h
      | delete cron f id => exact (deleteTask_end cron f id hk).2.2 hjob h
    · exact h.congr (heffect.rows id fun heq => hid heq.symm) (heffect.jobs id fun heq => hid heq.symm)

/-! ## A nightly task -/

def anyCron : Cron := ⟨fun _ => true, fun _ => none⟩

def nightly : Task :=
  ⟨"backup", "pg_dump", ["server"], "scheduled", none, some "0 0 2 * * *", true, none, 0, 60, none⟩

/-- the task with its job -/
def oneJob : State where
  rows id := if id = "backup" then some nightly else none
  results _ := 0
  jobMap id := if id = "backup" then some 0 else none
  scheduler job := if job = 0 then some "0 0 2 * * *" else none
  running _ := false
  fresh := 1

theorem oneJob_kept : Kept oneJob := by
  have hjob (id : String) (job : ℕ) (h : oneJob.jobMap id = some job) : id = "backup" ∧ job = 0 := by
    simp only [oneJob] at h
    split_ifs at h with hid
    exact ⟨hid, (Option.some.inj h).symm⟩
  refine ⟨fun id t ht => ?_, fun id job h => ?_, fun id job h => ?_, fun id id' job h h' => ?_⟩
  · simp only [oneJob] at ht
    split_ifs at ht with hid
    rw [← Option.some.inj ht, hid]
    rfl
  · rw [(hjob id job h).2]
    rfl
  · rw [(hjob id job h).2]
    decide
  · rw [(hjob id job h).1, (hjob id' job h').1]

theorem oneJob_agrees : Agrees oneJob "backup" :=
  Agrees.of_job (t := nightly) rfl ⟨rfl, rfl⟩ rfl rfl

def rename : UpdateTaskRequest := ⟨some "dump", none, none, none, none, none, none, none⟩

/-- a task that is renamed, and not deleted because the transaction fails -/
theorem oneJob_follows :
    Agrees (runs step oneJob [.update anyCron .none "backup" rename, .delete anyCron { Faults.none with commit := true } "backup"])
      "backup" := by
  refine (jobs_follow_table oneJob oneJob_kept _).2 "backup" oneJob_agrees ⟨fun _ => ⟨?_, rfl, rfl⟩, fun _ => ⟨trivial, rfl, rfl⟩, trivial⟩
  intro existing model hw _ _
  refine Or.inl ⟨fun _ => rfl, fun _ => ⟨rfl, "0 0 2 * * *", ?_, rfl⟩⟩
  obtain rfl := Option.some.inj hw.row
  obtain rfl := Except.ok.inj hw.valid
  rfl

def earlier : UpdateTaskRequest := ⟨none, none, none, some "0 0 1 * * *", none, none, none, none⟩

/-- the scheduler does not remove the old job: the call fails and compensates, the new row stays, and the old job runs -/
theorem update_error_keeps_new_row :
    let op := Op.update anyCron { Faults.none with remove := true } "backup" earlier
    Kept oneJob ∧ Agrees oneJob "backup" ∧ (call oneJob op).1.result = .error "Failed to remove job" ∧ Compensated oneJob op ∧
      (step oneJob op).rows "backup" = some { nightly with cronExpression := some "0 0 1 * * *" } ∧
      (step oneJob op).rows "backup" ≠ oneJob.rows "backup" ∧
      registered (step oneJob op) "backup" = some "0 0 2 * * *" ∧ ¬ Agrees (step oneJob op) "backup" := by
  intro op
  have hrow : (step oneJob op).rows "backup" = some { nightly with cronExpression := some "0 0 1 * * *" } := rfl
  have hjob : registered (step oneJob op) "backup" = some "0 0 2 * * *" := rfl
  refine ⟨oneJob_kept, oneJob_agrees, rfl, ⟨rfl, rfl⟩, hrow, ?_, hjob, fun h => ?_⟩
  · rw [hrow]
    decide
  · exact absurd (h.expression _ _ hrow hjob) (by decide)

end ServerBee.Tasks
