/-
How upgrade jobs end.

`Edit` is all that an operation can do to its entry. `Upholds` is what every step should keep: a Running job is neither
replaced nor dropped, each job leaves Running once, an ended job stays as it is (an agent's report turns Succeeded into
Failed), and a lookup with the id of another job changes nothing. The two steps of `start_job` do not keep it when another
call inserts between them (`second_start_replaces`); every run in which that does not happen keeps it (`jobs_end_once`).
-/
import ServerBee.Lib.Run
import ServerBee.UpgradeJobs.Tracker

namespace ServerBee.UpgradeJobs

open ServerBee.Lib

/-! ## What should hold -/

def Op.reported : Op → Bool
  | .markAgentReportedFailed _ _ _ _ _ => true
  | _ => false

/-- the job with the id is Running -/
def isRunning (jobs : Jobs) (jobId : ℕ) : Prop := ∃ n job, jobs n = some job ∧ job.jobId = jobId ∧ job.status = .running

/-- how often the job left Running -/
def St.departures (s : St) (jobId : ℕ) : ℕ := (s.left.map Prod.fst).count jobId

structure Upholds (s : St) (op : Op) : Prop where
  /-- a Running job is neither replaced nor dropped -/
  stays : ∀ n job, s.jobs n = some job → job.status = .running →
    ∃ job', (step s op).jobs n = some job' ∧ job'.jobId = job.jobId
  /-- a job that is Running has not left; every other one has, once, for an end -/
  leaves : ∀ jobId ∈ (step s op).issued, (isRunning (step s op).jobs jobId → (step s op).departures jobId = 0) ∧
    (¬ isRunning (step s op).jobs jobId → (step s op).departures jobId = 1)
  ended : ∀ p ∈ (step s op).left, p.2 ≠ .running
  /-- an ended job changes from Succeeded to Failed, by a report of its agent -/
  final : ∀ n job job', s.jobs n = some job → job.status ≠ .running → (step s op).jobs n = some job' →
    job'.jobId = job.jobId → job' = job ∨ job.status = .succeeded ∧ job'.status = .failed ∧ op.reported = true
  /-- the id of another job changes nothing -/
  stale : ∀ lookup jobId, op.lookup = some lookup → lookup.jobId = some jobId →
    (∀ job, s.jobs lookup.serverId = some job → job.jobId ≠ jobId) → (step s op).jobs = s.jobs
  finished : ∀ n job, (step s op).jobs n = some job → (job.finishedAt.isSome = true ↔ job.status ≠ .running)
  /-- no job stays Running for longer than the timeout -/
  swept : ∀ now n, op = .sweep now n → ∀ job, (step s op).jobs n = some job → job.status = .running →
    now - upgradeTimeoutSecs * second < job.startedAt

/-- **When jobs end once.** An insert finds no Running job: no other call of `start_job` for the server inserted one after
the check. -/
def Allows (s : St) : Op → Prop
  | .insert t jobId _ => ∀ serverId targetVersion, s.tasks t = .starting serverId targetVersion → jobId ∉ s.issued →
    ∀ job, s.jobs serverId = some job → job.status ≠ .running
  | _ => True

/-! ## Edits -/

/-- what an operation can do to an entry -/
inductive Edit (jobs : Jobs) (n : ℕ) (reported : Bool) : Jobs → Prop where
  | same : Edit jobs n reported jobs
  | stage (job : UpgradeJob) (stage : UpgradeStage) (h : jobs n = some job) (hrunning : job.status = .running) :
    Edit jobs n reported (Function.update jobs n (some { job with stage := stage }))
  | finish (job job' : UpgradeJob) (h : jobs n = some job) (hid : job'.jobId = job.jobId)
    (hstatus : job.status = .running ∨ reported = true ∧ job.status = .succeeded ∧ job'.status = .failed)
    (hended : job'.status ≠ .running) (hfinished : job'.finishedAt.isSome = true) :
    Edit jobs n reported (Function.update jobs n (some job'))
  | drop (job : UpgradeJob) (h : jobs n = some job) (hended : job.status ≠ .running) :
    Edit jobs n reported (Function.update jobs n none)

section Edits

variable {jobs : Jobs}

theorem finishJobInner_edit (lookup : UpgradeLookup) {status : UpgradeStatus} (stage : Option UpgradeStage)
    (error backupPath : Option String) {reported : Bool} (now : ℤ) (hended : status ≠ .running)
    (hfailed : reported = true → status = .failed) :
    Edit jobs lookup.serverId reported (finishJobInner jobs lookup status stage error backupPath reported now).1 := by
  unfold finishJobInner
  cases h : jobs lookup.serverId with
  | none => exact .same
  | some job =>
    dsimp only
    split_ifs with hcan
    · refine .finish job _ h rfl ?_ hended rfl
      rcases hcan.1 with hrunning | ⟨hreported, hsucceeded⟩
      · exact Or.inl hrunning
      · exact Or.inr ⟨hreported, hsucceeded, hfailed hreported⟩
    · exact .same

theorem updateStage_edit (lookup : UpgradeLookup) (stage : UpgradeStage) :
    Edit jobs lookup.serverId false (updateStage jobs lookup stage).1 := by
  unfold updateStage
  cases h : jobs lookup.serverId with
  | none => exact .same
  | some job =>
    dsimp only
    split_ifs with hno hsame
    · exact .same
    · exact .same
    · exact .stage job stage h (not_ne_iff.1 (not_or.1 hno).1)

theorem sweepEntry_edit (now : ℤ) (n : ℕ) : Edit jobs n false (sweepEntry jobs now n).1 := by
  unfold sweepEntry
  cases h : jobs n with
  | none => exact .same
  | some job =>
    dsimp only
    split_ifs with hno
    · exact .same
    · exact .finish job _ h rfl (Or.inl (not_ne_iff.1 (not_or.1 hno).1)) UpgradeStatus.noConfusion rfl

/-- what a sweep leaves Running is young -/
theorem sweepEntry_young (now : ℤ) (n : ℕ) {job : UpgradeJob} (h : (sweepEntry jobs now n).1 n = some job)
    (hrunning : job.status = .running) : now - upgradeTimeoutSecs * second < job.startedAt := by
  unfold sweepEntry at h
  cases hn : jobs n with
  | none =>
    rw [hn] at h
    cases hn.symm.trans h
  | some old =>
    rw [hn] at h
    dsimp only at h
    split_ifs at h with hno
    · obtain rfl : old = job := Option.some.inj (hn.symm.trans h)
      exact hno.resolve_left (not_not_intro hrunning)
    · dsimp only at h
      rw [Function.update_self] at h
      obtain rfl := Option.some.inj h
      cases hrunning

theorem cleanupEntry_edit (now : ℤ) (n : ℕ) : Edit jobs n false (cleanupEntry jobs now n) := by
  unfold cleanupEntry
  cases h : jobs n with
  | none => exact .same
  | some job =>
    dsimp only
    split_ifs with hold
    · exact .drop job h (by simpa [UpgradeJob.isTerminal] using hold.1)
    · exact .same

/-- every operation is an edit of its entry -/
theorem apply_edit (op : Op) : Edit jobs op.serverId op.reported (op.apply jobs) := by
  cases op with
  | check t serverId targetVersion => exact .same
  | insert t jobId now => exact .same
  | updateStage lookup stage => exact updateStage_edit lookup stage
  | markFailed lookup stage error backupPath now =>
    exact finishJobInner_edit lookup (some stage) (some error) backupPath now UpgradeStatus.noConfusion Bool.noConfusion
  | markAgentReportedFailed lookup stage error backupPath now =>
    exact finishJobInner_edit lookup (some stage) (some error) backupPath now UpgradeStatus.noConfusion fun _ => rfl
  | markFailedByCapabilityDenied lookup reason now =>
    exact finishJobInner_edit lookup none _ none now UpgradeStatus.noConfusion Bool.noConfusion
  | markSucceeded lookup backupPath now =>
    exact finishJobInner_edit lookup none none backupPath now UpgradeStatus.noConfusion Bool.noConfusion
  | sweep now serverId => exact sweepEntry_edit now serverId
  | cleanup now serverId => exact cleanupEntry_edit now serverId

theorem finishJobInner_stale {lookup : UpgradeLookup} {status : UpgradeStatus} {stage : Option UpgradeStage}
    {error backupPath : Option String} {reported : Bool} {now : ℤ}
    (h : ∀ job, jobs lookup.serverId = some job → lookup.matches job = false) :
    (finishJobInner jobs lookup status stage error backupPath reported now).1 = jobs := by
  unfold finishJobInner
  cases hjob : jobs lookup.serverId with
  | none => rfl
  | some job =>
    dsimp only
    rw [if_neg]
    simp [h job hjob]

/-- an operation whose lookup matches no job changes nothing -/
theorem apply_stale {op : Op} {lookup : UpgradeLookup} (hop : op.lookup = some lookup)
    (h : ∀ job, jobs lookup.serverId = some job → lookup.matches job = false) : op.apply jobs = jobs := by
  cases op with
  | updateStage lookup' stage =>
    obtain rfl : lookup' = lookup := Option.some.inj hop
    simp only [Op.apply, UpgradeJobs.updateStage]
    cases hjob : jobs lookup'.serverId with
    | none => rfl
    | some job =>
      dsimp only
      rw [if_pos (Or.inr (h job hjob))]
  | markFailed lookup' stage error backupPath now =>
    obtain rfl : lookup' = lookup := Option.some.inj hop
    exact finishJobInner_stale h
  | markAgentReportedFailed lookup' stage error backupPath now =>
    obtain rfl : lookup' = lookup := Option.some.inj hop
    exact finishJobInner_stale h
  | markFailedByCapabilityDenied lookup' reason now =>
    obtain rfl : lookup' = lookup := Option.some.inj hop
    exact finishJobInner_stale h
  | markSucceeded lookup' backupPath now =>
    obtain rfl : lookup' = lookup := Option.some.inj hop
    exact finishJobInner_stale h
  | _ => cases hop

end Edits

/-! ## Invariant -/

structure Inv (s : St) : Prop where
  issued : ∀ n job, s.jobs n = some job → job.jobId ∈ s.issued
  unique : ∀ n n' job job', s.jobs n = some job → s.jobs n' = some job' → job.jobId = job'.jobId → n = n'
  leaves : ∀ jobId ∈ s.issued, (isRunning s.jobs jobId → s.departures jobId = 0) ∧
    (¬ isRunning s.jobs jobId → s.departures jobId = 1)
  left : ∀ p ∈ s.left, p.1 ∈ s.issued ∧ p.2 ≠ .running
  finished : ∀ n job, s.jobs n = some job → (job.finishedAt.isSome = true ↔ job.status ≠ .running)

theorem inv_new : Inv St.new :=
  ⟨fun _ _ h => (by cases h), fun _ _ _ _ h => (by cases h), fun _ h => absurd h List.not_mem_nil,
    fun _ h => absurd h List.not_mem_nil, fun _ _ h => (by cases h)⟩

section Steps

variable {s : St} {n : ℕ} {job : UpgradeJob}

theorem departure_self (o : Option UpgradeJob) : departure o o = [] := by
  cases o with
  | none => rfl
  | some job => simp [departure]

theorem departures_append (jobId : ℕ) (d : List (ℕ × UpgradeStatus)) :
    St.departures { s with left := s.left ++ d } jobId = s.departures jobId + (d.map Prod.fst).count jobId := by
  simp [St.departures]

theorem isRunning_iff (h : Inv s) (hn : s.jobs n = some job) : isRunning s.jobs job.jobId ↔ job.status = .running := by
  constructor
  · rintro ⟨n', job', hn', hid, hrunning⟩
    obtain rfl := h.unique n' n job' job hn' hn hid
    obtain rfl : job' = job := Option.some.inj (hn'.symm.trans hn)
    exact hrunning
  · intro hrunning
    exact ⟨n, job, hn, rfl, hrunning⟩

/-- the other jobs -/
theorem isRunning_update_ne {jobs : Jobs} (hn : jobs n = some job) {o : Option UpgradeJob}
    (hid : ∀ job', o = some job' → job'.jobId = job.jobId) {jobId : ℕ} (hne : jobId ≠ job.jobId) :
    isRunning (Function.update jobs n o) jobId ↔ isRunning jobs jobId := by
  constructor
  · rintro ⟨n', job', hn', rfl, hrunning⟩
    by_cases heq : n' = n
    · subst heq
      rw [Function.update_self] at hn'
      exact absurd (hid job' hn') hne
    · rw [Function.update_of_ne heq] at hn'
      exact ⟨n', job', hn', rfl, hrunning⟩
  · rintro ⟨n', job', hn', rfl, hrunning⟩
    have heq : n' ≠ n := fun heq => by
      subst heq
      obtain rfl : job' = job := Option.some.inj (hn'.symm.trans hn)
      exact hne rfl
    exact ⟨n', job', by rwa [Function.update_of_ne heq], rfl, hrunning⟩

/-- an entry changes and keeps its id, or goes after the job has ended -/
theorem inv_update (h : Inv s) (hn : s.jobs n = some job) {o : Option UpgradeJob}
    (hid : ∀ job', o = some job' → job'.jobId = job.jobId)
    (hfinished : ∀ job', o = some job' → (job'.finishedAt.isSome = true ↔ job'.status ≠ .running))
    (hkeep : job.status = .running → o ≠ none)
    (hback : job.status ≠ .running → ∀ job', o = some job' → job'.status ≠ .running) :
    Inv { s with jobs := Function.update s.jobs n o, left := s.left ++ departure (some job) o } := by
  have hold : ∀ n' job', Function.update s.jobs n o n' = some job' →
      ∃ job'', s.jobs n' = some job'' ∧ job''.jobId = job'.jobId := by
    intro n' job' hn'
    by_cases heq : n' = n
    · subst heq
      rw [Function.update_self] at hn'
      exact ⟨job, hn, (hid job' hn').symm⟩
    · rw [Function.update_of_ne heq] at hn'
      exact ⟨job', hn', rfl⟩
  have hissued := h.issued n job hn
  have hleft : ∀ p ∈ departure (some job) o, p.1 = job.jobId ∧ p.2 ≠ .running := by
    intro p hp
    cases o with
    | none => cases hp
    | some job' =>
      simp only [departure] at hp
      split_ifs at hp with hgone
      · obtain rfl := List.mem_singleton.1 hp
        exact ⟨rfl, hgone.2.2⟩
      · cases hp
  refine ⟨fun n' job' hn' => ?_, fun n' n'' job' job'' hn' hn'' heq => ?_, fun jobId hjobId => ?_, fun p hp => ?_,
    fun n' job' hn' => ?_⟩
  · obtain ⟨job'', hn'', hsame⟩ := hold n' job' hn'
    exact hsame ▸ h.issued n' job'' hn''
  · obtain ⟨old', hold', hsame'⟩ := hold n' job' hn'
    obtain ⟨old'', hold'', hsame''⟩ := hold n'' job'' hn''
    exact h.unique n' n'' old' old'' hold' hold'' (hsame'.trans (heq.trans hsame''.symm))
  · show (isRunning (Function.update s.jobs n o) jobId → St.departures { s with left := s.left ++ departure (some job) o } jobId = 0) ∧
      (¬ isRunning (Function.update s.jobs n o) jobId → St.departures { s with left := s.left ++ departure (some job) o } jobId = 1)
    rw [departures_append]
    by_cases hne : jobId = job.jobId
    · subst hne
      obtain ⟨hzero, hone⟩ := h.leaves job.jobId hissued
      rw [isRunning_iff h hn] at hzero hone
      -- the entry is the only one with this id
      have hnow : isRunning (Function.update s.jobs n o) job.jobId ↔ ∃ job', o = some job' ∧ job'.status = .running := by
        constructor
        · rintro ⟨n', job', hn', hsame, hrunning⟩
          obtain ⟨old, holdn, hsame'⟩ := hold n' job' hn'
          obtain rfl := h.unique n' n old job holdn hn (hsame'.trans hsame)
          rw [Function.update_self] at hn'
          exact ⟨job', hn', hrunning⟩
        · rintro ⟨job', ho, hrunning⟩
          exact ⟨n, job', by rw [Function.update_self, ho], hid job' ho, hrunning⟩
      rw [hnow]
      by_cases hrunning : job.status = .running
      · cases o with
        | none => exact absurd rfl (hkeep hrunning)
        | some job' =>
          have hsame := hid job' rfl
          by_cases hrunning' : job'.status = .running
          · simp [departure, hrunning, hrunning', hzero]
          · simp [departure, hrunning, hrunning', hsame, hzero]
      · have hended : ¬ ∃ job', o = some job' ∧ job'.status = .running := fun ⟨job', ho, hr⟩ => hback hrunning job' ho hr
        have hnone : departure (some job) o = [] := by
          cases o with
          | none => rfl
          | some job' => simp [departure, hrunning]
        simp [hended, hnone, hone hrunning]
    · have hcount : ((departure (some job) o).map Prod.fst).count jobId = 0 := by
        rw [List.count_eq_zero]
        intro hmem
        obtain ⟨p, hp, rfl⟩ := List.mem_map.1 hmem
        exact hne (hleft p hp).1
      rw [hcount, isRunning_update_ne hn hid hne]
      exact h.leaves jobId hjobId
  · rcases List.mem_append.1 hp with hp | hp
    · exact h.left p hp
    · obtain ⟨hsame, hended⟩ := hleft p hp
      exact ⟨hsame ▸ hissued, hended⟩
  · have hn' : Function.update s.jobs n o n' = some job' := hn'
    by_cases heq : n' = n
    · subst heq
      rw [Function.update_self] at hn'
      exact hfinished job' hn'
    · rw [Function.update_of_ne heq] at hn'
      exact h.finished n' job' hn'

theorem inv_edit (h : Inv s) {reported : Bool} {jobs' : Jobs} (e : Edit s.jobs n reported jobs') :
    Inv { s with jobs := jobs', left := s.left ++ departure (s.jobs n) (jobs' n) } := by
  cases e with
  | same =>
    rw [departure_self, List.append_nil]
    exact h
  | stage job stage hn hrunning =>
    rw [Function.update_self, hn]
    have hfinished := h.finished n job hn
    refine inv_update h hn ?_ ?_ (fun _ => Option.some_ne_none _) fun hno => absurd hrunning hno
    · intro job' hjob'
      obtain rfl := Option.some.inj hjob'
      rfl
    · intro job' hjob'
      obtain rfl := Option.some.inj hjob'
      exact hfinished
  | finish job job' hn hid hstatus hended hfinished =>
    rw [Function.update_self, hn]
    refine inv_update h hn ?_ ?_ (fun _ => Option.some_ne_none _) ?_
    · intro job'' hjob''
      obtain rfl := Option.some.inj hjob''
      exact hid
    · intro job'' hjob''
      obtain rfl := Option.some.inj hjob''
      exact iff_of_true hfinished hended
    · intro _ job'' hjob''
      obtain rfl := Option.some.inj hjob''
      exact hended
  | drop job hn hended =>
    rw [Function.update_self, hn]
    exact inv_update h hn (fun _ h => by cases h) (fun _ h => by cases h) (fun hrunning => absurd hrunning hended)
      fun _ _ h => by cases h

theorem inv_insert (h : Inv s) {t jobId : ℕ} {targetVersion : String} {now : ℤ} (hfresh : jobId ∉ s.issued)
    (hno : ∀ job, s.jobs n = some job → job.status ≠ .running) :
    Inv { s with
      jobs := insertJob s.jobs n jobId targetVersion now
      tasks := Function.update s.tasks t .idle
      issued := jobId :: s.issued } := by
  have hold : ∀ n' job', insertJob s.jobs n jobId targetVersion now n' = some job' →
      n' = n ∧ job' = newJob n jobId targetVersion now ∨ n' ≠ n ∧ s.jobs n' = some job' := by
    intro n' job' hn'
    unfold insertJob at hn'
    by_cases heq : n' = n
    · subst heq
      rw [Function.update_self] at hn'
      exact Or.inl ⟨rfl, (Option.some.inj hn').symm⟩
    · rw [Function.update_of_ne heq] at hn'
      exact Or.inr ⟨heq, hn'⟩
  have hnew : ∀ n' job', s.jobs n' = some job' → job'.jobId ≠ jobId := fun n' job' hn' heq =>
    hfresh (heq ▸ h.issued n' job' hn')
  refine ⟨fun n' job' hn' => ?_, fun n' n'' job' job'' hn' hn'' heq => ?_, fun id hid => ?_, fun p hp => ?_, fun n' job' hn' => ?_⟩
  · rcases hold n' job' hn' with ⟨-, rfl⟩ | ⟨-, hn'⟩
    · exact List.mem_cons_self
    · exact List.mem_cons_of_mem _ (h.issued n' job' hn')
  · rcases hold n' job' hn' with ⟨rfl, rfl⟩ | ⟨-, hjob'⟩ <;> rcases hold n'' job'' hn'' with ⟨rfl, rfl⟩ | ⟨-, hjob''⟩
    · rfl
    · exact absurd heq.symm (hnew n'' job'' hjob'')
    · exact absurd heq (hnew n' job' hjob')
    · exact h.unique n' n'' job' job'' hjob' hjob'' heq
  · show (isRunning (insertJob s.jobs n jobId targetVersion now) id → s.departures id = 0) ∧
      (¬ isRunning (insertJob s.jobs n jobId targetVersion now) id → s.departures id = 1)
    rcases List.mem_cons.1 hid with rfl | hid
    · have hzero : s.departures id = 0 := by
        unfold St.departures
        rw [List.count_eq_zero]
        intro hmem
        obtain ⟨p, hp, rfl⟩ := List.mem_map.1 hmem
        exact hfresh (h.left p hp).1
      have hrunning : isRunning (insertJob s.jobs n id targetVersion now) id :=
        ⟨n, newJob n id targetVersion now, Function.update_self .., rfl, rfl⟩
      exact ⟨fun _ => hzero, fun hno => absurd hrunning hno⟩
    · -- the replaced job was not Running
      have hsame : isRunning (insertJob s.jobs n jobId targetVersion now) id ↔ isRunning s.jobs id := by
        constructor
        · rintro ⟨n', job', hn', rfl, hrunning⟩
          rcases hold n' job' hn' with ⟨-, rfl⟩ | ⟨-, hn'⟩
          · exact absurd hid hfresh
          · exact ⟨n', job', hn', rfl, hrunning⟩
        · rintro ⟨n', job', hn', rfl, hrunning⟩
          have heq : n' ≠ n := fun heq => hno job' (heq ▸ hn') hrunning
          exact ⟨n', job', (Function.update_of_ne heq ..).trans hn', rfl, hrunning⟩
      rw [hsame]
      exact h.leaves id hid
  · exact ⟨List.mem_cons_of_mem _ (h.left p hp).1, (h.left p hp).2⟩
  · rcases hold n' job' hn' with ⟨-, rfl⟩ | ⟨-, hn'⟩
    · simp [newJob]
    · exact h.finished n' job' hn'

theorem insertJob_self (jobs : Jobs) (n jobId : ℕ) (targetVersion : String) (now : ℤ) :
    insertJob jobs n jobId targetVersion now n = some (newJob n jobId targetVersion now) := Function.update_self ..

/-- the tasks are not part of the invariant -/
theorem inv_tasks (h : Inv s) (tasks : ℕ → Task) : Inv { s with tasks := tasks } :=
  ⟨h.issued, h.unique, h.leaves, h.left, h.finished⟩

theorem inv_step (op : Op) (h : Inv s) (ha : Allows s op) : Inv (step s op) := by
  cases op with
  | check t serverId targetVersion =>
    simp only [step]
    split_ifs
    · exact inv_tasks h _
    · exact h
  | insert t jobId now =>
    simp only [step]
    cases ht : s.tasks t with
    | idle => exact h
    | starting serverId targetVersion =>
      dsimp only
      split_ifs with hfresh
      · exact h
      · exact inv_insert h hfresh fun job hjob => ha serverId targetVersion ht hfresh job hjob
  | _ => exact inv_edit h (apply_edit _)

/-- what an edit leaves of an entry -/
theorem edit_spec {jobs jobs' : Jobs} {reported : Bool} (e : Edit jobs n reported jobs') (m : ℕ) {job : UpgradeJob}
    (hm : jobs m = some job) : (job.status = .running → ∃ job', jobs' m = some job' ∧ job'.jobId = job.jobId) ∧
      (job.status ≠ .running → ∀ job', jobs' m = some job' →
        job' = job ∨ job.status = .succeeded ∧ job'.status = .failed ∧ reported = true) := by
  have hself : ∀ o : Option UpgradeJob, m ≠ n → Function.update jobs n o m = some job := fun o hne => by
    rw [Function.update_of_ne hne]
    exact hm
  have hsame : ∀ jobs'' : Jobs, jobs'' m = some job → (job.status = .running → ∃ job', jobs'' m = some job' ∧ job'.jobId = job.jobId) ∧
      (job.status ≠ .running → ∀ job', jobs'' m = some job' →
        job' = job ∨ job.status = .succeeded ∧ job'.status = .failed ∧ reported = true) := fun jobs'' h =>
    ⟨fun _ => ⟨job, h, rfl⟩, fun _ job' h' => Or.inl (Option.some.inj (h'.symm.trans h))⟩
  by_cases hne : m = n
  swap
  · cases e with
    | same => exact hsame _ hm
    | stage old stage hn hrunning => exact hsame _ (hself _ hne)
    | finish old new hn hid hstatus hended hfinished => exact hsame _ (hself _ hne)
    | drop old hn hended => exact hsame _ (hself _ hne)
  subst hne
  cases e with
  | same => exact hsame _ hm
  | stage old stage hn hrunning =>
    obtain rfl : old = job := Option.some.inj (hn.symm.trans hm)
    exact ⟨fun _ => ⟨_, Function.update_self .., rfl⟩, fun hno => absurd hrunning hno⟩
  | finish old new hn hid hstatus hended hfinished =>
    obtain rfl : old = job := Option.some.inj (hn.symm.trans hm)
    refine ⟨fun _ => ⟨new, Function.update_self .., hid⟩, fun hno job' hjob' => Or.inr ?_⟩
    rw [Function.update_self] at hjob'
    obtain rfl := Option.some.inj hjob'
    obtain ⟨hreported, hsucceeded, hfailed⟩ := hstatus.resolve_left hno
    exact ⟨hsucceeded, hfailed, hreported⟩
  | drop old hn hended =>
    obtain rfl : old = job := Option.some.inj (hn.symm.trans hm)
    refine ⟨fun hrunning => absurd hrunning hended, fun _ job' hjob' => ?_⟩
    rw [Function.update_self] at hjob'
    cases hjob'

/-- a lookup with the id of another job -/
theorem stale_of_lookup {op : Op} {lookup : UpgradeLookup} {jobId : ℕ} (hop : op.lookup = some lookup)
    (hid : lookup.jobId = some jobId) (hne : ∀ job, s.jobs lookup.serverId = some job → job.jobId ≠ jobId) :
    op.apply s.jobs = s.jobs := by
  refine apply_stale hop fun job hjob => ?_
  unfold UpgradeLookup.matches
  rw [hid]
  split_ifs
  · rfl
  · exact beq_eq_false_iff_ne.2 (hne job hjob)

/-- a step that is an edit -/
theorem upholds_edit {op : Op} (h : Inv (step s op)) (hjobs : (step s op).jobs = op.apply s.jobs) : Upholds s op where
  swept now n hop job hjob hrunning := by
    subst hop
    rw [hjobs] at hjob
    exact sweepEntry_young now n hjob hrunning
  stays m job hm hrunning := by
    rw [hjobs]
    exact (edit_spec (apply_edit op) m hm).1 hrunning
  leaves := h.leaves
  ended p hp := (h.left p hp).2
  final m job job' hm hended hm' _ := by
    rw [hjobs] at hm'
    exact (edit_spec (apply_edit op) m hm).2 hended job' hm'
  stale lookup jobId hop hid hne := hjobs.trans (stale_of_lookup hop hid hne)
  finished := h.finished

theorem upholds_insert {t jobId : ℕ} {now : ℤ} (h : Inv s) (hstep : Inv (step s (.insert t jobId now)))
    (ha : Allows s (.insert t jobId now)) : Upholds s (.insert t jobId now) := by
  cases ht : s.tasks t with
  | idle =>
    refine upholds_edit hstep ?_
    simp only [step, ht]
    rfl
  | starting n targetVersion =>
    by_cases hfresh : jobId ∈ s.issued
    · refine upholds_edit hstep ?_
      simp only [step, ht, if_pos hfresh]
      rfl
    · have hjobs : (step s (.insert t jobId now)).jobs = insertJob s.jobs n jobId targetVersion now := by
        simp only [step, ht, if_neg hfresh]
      refine ⟨fun m job hm hrunning => ?_, hstep.leaves, fun p hp => (hstep.left p hp).2, fun m job job' hm hended hm' hid => ?_,
        fun lookup jobId hop => (by cases hop), hstep.finished, fun _ _ hop => (by cases hop)⟩
      · have hne : m ≠ n := fun heq => ha n targetVersion ht hfresh job (heq ▸ hm) hrunning
        exact ⟨job, by rw [hjobs]; exact (Function.update_of_ne hne ..).trans hm, rfl⟩
      · rw [hjobs] at hm'
        by_cases hne : m = n
        · subst hne
          obtain rfl := Option.some.inj ((insertJob_self ..).symm.trans hm')
          exact absurd (hid.symm ▸ h.issued m job hm : (newJob m jobId targetVersion now).jobId ∈ s.issued) hfresh
        · exact Or.inl (Option.some.inj (hm'.symm.trans ((Function.update_of_ne hne ..).trans hm)))

theorem upholds_iff (op : Op) (h : Inv s) : Upholds s op ↔ Allows s op := by
  constructor
  · intro hup
    cases op with
    | insert t jobId now =>
      intro n targetVersion ht hfresh job hjob hrunning
      obtain ⟨job', hjob', hid⟩ := hup.stays n job hjob hrunning
      have hjobs : (step s (.insert t jobId now)).jobs = insertJob s.jobs n jobId targetVersion now := by
        simp only [step, ht, if_neg hfresh]
      rw [hjobs] at hjob'
      obtain rfl := Option.some.inj ((insertJob_self ..).symm.trans hjob')
      have hissued := h.issued n job hjob
      rw [← hid] at hissued
      exact hfresh hissued
    | _ => trivial
  · intro ha
    have hstep := inv_step op h ha
    cases op with
    | check t serverId targetVersion =>
      refine upholds_edit hstep ?_
      simp only [step]
      split_ifs <;> rfl
    | insert t jobId now => exact upholds_insert h hstep ha
    | _ => exact upholds_edit hstep rfl

end Steps

/-! ## Main result -/

/-- **Upgrade jobs end once, exactly if no insert finds a Running job.** -/
theorem jobs_end_once (ops : List Op) : Along step Upholds St.new ops ↔ Along step Allows St.new ops :=
  along_congr (fun _ op h ha => inv_step op h ha) (fun _ op h => upholds_iff op h) inv_new ops

/-- two calls for a server -/
def twoStarts : List Op := [.check 0 7 "1.2.3", .check 1 7 "1.2.4", .insert 0 1 0, .insert 1 2 5]

/-- both calls pass the check, and the second insert replaces the Running job of the first -/
theorem second_start_replaces : ¬ Along step Upholds St.new twoStarts := by
  rintro ⟨-, -, -, hinsert, -⟩
  obtain ⟨job', hjob', hid⟩ := hinsert.stays 7 (newJob 7 1 "1.2.3" 0) rfl rfl
  have hafter : (runs step St.new twoStarts).jobs 7 = some (newJob 7 2 "1.2.4" 5) := rfl
  obtain rfl := Option.some.inj (hafter.symm.trans hjob')
  exact absurd hid (by decide)

end ServerBee.UpgradeJobs
