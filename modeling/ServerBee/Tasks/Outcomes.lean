/-
Runs of a task reach one outcome (`execute_scheduled_task`, `record_completion`, `finish_run`).

The claim in `active_runs` and the run that made it belong together (`Inv.owner`), and a row that says `running` belongs to a
run between its insert and its record (`Inv.running`). Two things break this or its sequel: a failed statement between the
insert and the spawn of the owner, which drops the guard and leaves the row, and a cancellation after the owner has decided
that the run is complete (`Guarded`).
-/
import ServerBee.Tasks.Runs

namespace ServerBee.TaskRuns

open ServerBee.Lib

/-! ## What a run must do -/

inductive StatusMove : Status → Status → Prop where
  | stay (status : Status) : StatusMove status status
  | giveUp : StatusMove .running .incomplete
  | drain : StatusMove .running .drained
  | complete : StatusMove .drained .completed

/-- a result of a server whose attempt no other result of it exceeds -/
structure Highest (results : List ResultRow) (taskId : String) (r : ℕ) (serverId : String) (result : ResultRow) : Prop where
  stored : result ∈ results
  key : result.taskId = taskId ∧ result.runId = r ∧ result.serverId = serverId
  highest : ∀ other ∈ results, other.taskId = taskId ∧ other.runId = r ∧ other.serverId = serverId → other.attempt ≤ result.attempt

structure Counts (final : String → Option ResultRow) (targets : List String) (summary : Summary) : Prop where
  total : summary.total = targets.length
  denied : summary.denied = targets.countP fun id => (final id).any fun row => row.exitCode == -2
  offline : summary.offline = targets.countP fun id => (final id).any fun row => row.exitCode == -3
  timedOut : summary.timedOut = targets.countP fun id => (final id).any fun row => row.exitCode == -4
  failed : summary.failed = targets.countP fun id => (final id).any fun row =>
    row.exitCode != 0 && row.exitCode != -2 && row.exitCode != -3 && row.exitCode != -4

/-- what holds when the row of a run becomes `drained` -/
structure Drained (s : State) (r : ℕ) (row row' : RunRow) : Prop where
  run : ∃ run executors, s.runs r = some run ∧ run.cancelled = false ∧ run.phase = .recording true executors ∧
    ∀ e ∈ executors, e.2 = .ended true
  results : ∀ id ∈ row.targets, ∃ result, finalResult s.results row.taskId r id = some result ∧
    Highest s.results row.taskId r id result
  summary : ∃ summary, row'.summary = some summary ∧ Counts (finalResult s.results row.taskId r) row.targets summary

/-- one step of the rows and of the notifications -/
structure Advances (s s' : State) : Prop where
  status : ∀ r row row', s.rows r = some row → s'.rows r = some row' → StatusMove row.status row'.status
  inserted : ∀ r row', s.rows r = none → s'.rows r = some row' → row'.status = .running
  drained : ∀ r row row', s.rows r = some row → s'.rows r = some row' → row.status ≠ .drained → row'.status = .drained →
    Drained s r row row'
  completed : s'.completions = s.completions ∧ s'.outbox = s.outbox ∧
      (∀ r row row', s.rows r = some row → s'.rows r = some row' → row'.status = .completed → row.status = .completed) ∨
    ∃ r jobs, s'.completions = r :: s.completions ∧ s'.outbox = s.outbox ++ jobs ∧ (∀ job ∈ jobs, job.1 = r) ∧
      ∀ k row row', s.rows k = some row → s'.rows k = some row' → row'.status = .completed → row.status = .completed ∨ k = r

/-- what holds in every state -/
structure Sound (s : State) : Prop where
  one : ∀ r r' run run', s.runs r = some run → s.runs r' = some run' → run.taskId = run'.taskId → r = r'
  running : ∀ r row, s.rows r = some row → row.status = .running → ∃ run, s.runs r = some run ∧ s.active row.taskId = some r
  once : s.completions.Nodup

/-! ## The condition -/

/-- a failed statement of this phase ends the run with its row stored -/
def Phase.exposed (denied : Bool) : Phase → Prop
  | .stored _ | .updated _ => True
  | .dispatching _ (_ :: _) _ => denied = true
  | _ => False

def Guarded (s : State) : Op → Prop
  | .advance r fails denied _ _ => fails = true → ∀ run, s.runs r = some run → ¬ run.phase.exposed denied
  | .cancel taskId => ∀ r run executors, s.active taskId = some r → s.runs r = some run → run.phase ≠ .recording true executors
  | _ => True

/-! ## Counting -/

theorem summarize_counts (final : String → Option ResultRow) (taskId : String) (r : ℕ) (targets : List String) :
    Counts final targets (summarize final taskId r targets) := by
  -- the loop adds to whatever has been counted
  have hloop (targets : List String) (start : Summary) :
      let summary := targets.foldl (fun summary id => ((final id).map fun row => summary.count row.exitCode).getD summary) start
      summary.total = start.total ∧
      summary.denied = start.denied + (targets.countP fun id => (final id).any fun row => row.exitCode == -2) ∧
      summary.offline = start.offline + (targets.countP fun id => (final id).any fun row => row.exitCode == -3) ∧
      summary.timedOut = start.timedOut + (targets.countP fun id => (final id).any fun row => row.exitCode == -4) ∧
      summary.failed = start.failed + targets.countP fun id => (final id).any fun row =>
        row.exitCode != 0 && row.exitCode != -2 && row.exitCode != -3 && row.exitCode != -4 := by
    induction targets generalizing start with
    | nil => simp
    | cons id rest ih =>
      dsimp only at ih ⊢
      rw [List.foldl_cons]
      obtain ⟨ht, hd, ho, hm, hf⟩ := ih (((final id).map fun row => start.count row.exitCode).getD start)
      rw [ht, hd, ho, hm, hf]
      simp only [List.countP_cons]
      cases final id with
      | none => simp
      | some row =>
        simp only [Option.map_some, Option.getD_some, Option.any_some, Summary.count]
        by_cases h0 : row.exitCode = 0
        · simp [h0]
        · by_cases h2 : row.exitCode = -2
          · simp [h2]
            omega
          · by_cases h3 : row.exitCode = -3
            · simp [h3]
              omega
            · by_cases h4 : row.exitCode = -4
              · simp [h4]
                omega
              · simp [h0, h2, h3, h4]
                omega
  have h := hloop targets ⟨taskId, r, targets.length, 0, 0, 0, 0⟩
  simp only [Nat.zero_add] at h
  exact ⟨h.1, h.2.1, h.2.2.1, h.2.2.2.1, h.2.2.2.2⟩

theorem finalResult_highest {results : List ResultRow} {taskId serverId : String} {r : ℕ} {result : ResultRow}
    (h : finalResult results taskId r serverId = some result) : Highest results taskId r serverId result := by
  unfold finalResult at h
  have hmem := List.mem_of_getLast? h
  simp only [runResults, List.mem_filter, List.mem_insertionSort, Bool.and_eq_true, beq_iff_eq] at hmem
  refine ⟨hmem.1.1, ⟨hmem.1.2.1, hmem.1.2.2, hmem.2⟩, fun other hother hkey => ?_⟩
  -- the list is sorted by attempt, and the result is its last
  have hsorted : ((runResults results taskId r).filter fun row => row.serverId == serverId).Pairwise
      fun a b => a.attempt ≤ b.attempt := by
    have htotal : Std.Total fun a b : ResultRow => a.attempt ≤ b.attempt := ⟨fun a b => Nat.le_total a.attempt b.attempt⟩
    have htrans : IsTrans ResultRow fun a b => a.attempt ≤ b.attempt := ⟨fun _ _ _ hab hbc => Nat.le_trans hab hbc⟩
    exact (List.pairwise_insertionSort _ _).filter _
  have hin : other ∈ (runResults results taskId r).filter fun row => row.serverId == serverId := by
    simp only [runResults, List.mem_filter, List.mem_insertionSort, Bool.and_eq_true, beq_iff_eq]
    exact ⟨⟨hother, hkey.1, hkey.2.1⟩, hkey.2.2⟩
  obtain ⟨init, hinit⟩ := List.getLast?_eq_some_iff.1 h
  rw [hinit] at hsorted hin
  rcases List.mem_append.1 hin with hin | hin
  · exact (List.pairwise_append.1 hsorted).2.2 other hin result List.mem_cons_self
  · rw [List.mem_singleton.1 hin]

/-! ## The invariant -/

/-- the row is not stored yet -/
def Phase.early : Phase → Prop
  | .claimed _ _ | .found _ => True
  | _ => False

/-- the row is stored and its outcome is not recorded -/
def Phase.opened : Phase → Prop
  | .stored _ | .updated _ | .dispatching _ _ _ | .draining _ _ | .recording _ _ => True
  | _ => False

/-- the owner has decided that the run is complete -/
def Phase.Decided (phase : Phase) (executors : List (String × Executor)) : Prop := phase = .recording true executors

structure Inv (s : State) : Prop where
  owner : ∀ r run, s.runs r = some run → s.active run.taskId = some r
  drawn : ∀ r run, s.runs r = some run → r < s.fresh
  stored : ∀ r row, s.rows r = some row → r < s.fresh
  early : ∀ r run, s.runs r = some run → run.phase.early → s.rows r = none ∧ r ∉ s.completions
  running : ∀ r row, s.rows r = some row → row.status = .running →
    ∃ run, s.runs r = some run ∧ run.taskId = row.taskId ∧ run.phase.opened
  decided : ∀ r run executors, s.runs r = some run → run.phase.Decided executors →
    run.cancelled = false ∧ ∀ e ∈ executors, e.2 = .ended true
  completed : ∀ r ∈ s.completions, r < s.fresh ∧ ∀ row, s.rows r = some row → row.status = .completed
  once : s.completions.Nodup

section Steps

variable {s : State} {r : ℕ} {run : Run}

theorem update_some {α : Type} {f : ℕ → Option α} {entry : Option α} {k : ℕ} {a : α}
    (h : Function.update f r entry k = some a) : k = r ∧ entry = some a ∨ k ≠ r ∧ f k = some a := by
  by_cases hk : k = r
  · subst hk
    rw [Function.update_self] at h
    exact Or.inl ⟨rfl, h⟩
  · rw [Function.update_of_ne hk] at h
    exact Or.inr ⟨hk, h⟩

theorem setRow_some {row other : RunRow} {k : ℕ} (h : (s.setRow r row).rows k = some other) :
    k = r ∧ other = row ∨ k ≠ r ∧ s.rows k = some other :=
  (update_some h).imp_left fun hk => ⟨hk.1, (Option.some.inj hk.2).symm⟩

/-- a run of the task moves; its row is closed only when its outcome is recorded -/
theorem Inv.replace (h : Inv s) (hrun : s.runs r = some run) {run' : Run} (htask : run'.taskId = run.taskId)
    (hearly : run'.phase.early → run.phase.early) (hopened : run'.phase.opened ∨ ∀ row, s.rows r = some row → row.status ≠ .running)
    (hdecided : ∀ executors, run'.phase.Decided executors → run'.cancelled = false ∧ ∀ e ∈ executors, e.2 = .ended true) :
    Inv { s with runs := Function.update s.runs r (some run') } := by
  refine ⟨fun k other hk => ?_, fun k other hk => ?_, h.stored, fun k other hk hphase => ?_, fun k row hk hstatus => ?_,
    fun k other executors hk hphase => ?_, h.completed, h.once⟩
  · rcases update_some hk with ⟨rfl, heq⟩ | ⟨-, hk⟩
    · obtain rfl := Option.some.inj heq
      rw [htask]
      exact h.owner k run hrun
    · exact h.owner k other hk
  · rcases update_some hk with ⟨rfl, -⟩ | ⟨-, hk⟩
    · exact h.drawn k run hrun
    · exact h.drawn k other hk
  · rcases update_some hk with ⟨rfl, heq⟩ | ⟨-, hk⟩
    · obtain rfl := Option.some.inj heq
      exact h.early k run hrun (hearly hphase)
    · exact h.early k other hk hphase
  · by_cases hkr : k = r
    · subst hkr
      rcases hopened with hopened | hclosed
      · obtain ⟨other, hother, hsame, -⟩ := h.running k row hk hstatus
        obtain rfl := Option.some.inj (hother.symm.trans hrun)
        exact ⟨run', Function.update_self .., htask.trans hsame, hopened⟩
      · exact absurd hstatus (hclosed row hk)
    · obtain ⟨other, hother, hsame, hphase⟩ := h.running k row hk hstatus
      exact ⟨other, (Function.update_of_ne hkr ..).trans hother, hsame, hphase⟩
  · rcases update_some hk with ⟨rfl, heq⟩ | ⟨-, hk⟩
    · obtain rfl := Option.some.inj heq
      exact hdecided executors hphase
    · exact h.decided k other executors hk hphase

theorem Inv.goto (h : Inv s) (hrun : s.runs r = some run) {phase : Phase} (hearly : phase.early → run.phase.early)
    (hopened : phase.opened ∨ ∀ row, s.rows r = some row → row.status ≠ .running)
    (hdecided : ∀ executors, phase.Decided executors → run.cancelled = false ∧ ∀ e ∈ executors, e.2 = .ended true) :
    Inv (s.goto r run phase) := h.replace hrun rfl hearly hopened hdecided

/-- the guard is dropped: the row of the run must not be open -/
theorem Inv.release (h : Inv s) (hrun : s.runs r = some run) (hclosed : ∀ row, s.rows r = some row → row.status ≠ .running) :
    Inv (s.release r run) := by
  have hother {k : ℕ} {other : Run} (hk : Function.update s.runs r none k = some other) : k ≠ r ∧ s.runs k = some other := by
    rcases update_some hk with ⟨-, hno⟩ | hk
    · cases hno
    · exact hk
  refine ⟨fun k other hk => ?_, fun k other hk => h.drawn k other (hother hk).2, h.stored,
    fun k other hk => h.early k other (hother hk).2, fun k row hk hstatus => ?_,
    fun k other executors hk => h.decided k other executors (hother hk).2, h.completed, h.once⟩
  · obtain ⟨hne, hk⟩ := hother hk
    have howner := h.owner k other hk
    unfold State.release
    dsimp only
    rw [if_pos (h.owner r run hrun)]
    by_cases htask : other.taskId = run.taskId
    · rw [htask, h.owner r run hrun] at howner
      exact absurd (Option.some.inj howner).symm hne
    · rwa [Function.update_of_ne htask]
  · by_cases hkr : k = r
    · subst hkr
      exact absurd hstatus (hclosed row hk)
    · obtain ⟨other, hother', hrest⟩ := h.running k row hk hstatus
      exact ⟨other, (Function.update_of_ne hkr ..).trans hother', hrest⟩

/-- the row of the run gets its outcome -/
theorem Inv.setRow (h : Inv s) {row row' : RunRow} (hrow : s.rows r = some row) (hstatus : row'.status ≠ .running)
    (hcompleted : r ∈ s.completions → row'.status = .completed) : Inv (s.setRow r row') := by
  refine ⟨h.owner, h.drawn, fun k other hk => ?_, fun k run' hk hphase => ?_, fun k other hk hrunning => ?_, h.decided,
    fun k hk => ⟨(h.completed k hk).1, fun other hother => ?_⟩, h.once⟩
  · rcases setRow_some hk with ⟨rfl, -⟩ | ⟨-, hk⟩
    · exact h.stored k row hrow
    · exact h.stored k other hk
  · obtain ⟨hnone, hnew⟩ := h.early k run' hk hphase
    refine ⟨?_, hnew⟩
    by_cases hkr : k = r
    · subst hkr
      rw [hrow] at hnone
      cases hnone
    · exact (Function.update_of_ne hkr ..).trans hnone
  · rcases setRow_some hk with ⟨-, rfl⟩ | ⟨-, hk⟩
    · exact absurd hrunning hstatus
    · exact h.running k other hk hrunning
  · rcases setRow_some hother with ⟨rfl, rfl⟩ | ⟨-, hother⟩
    · exact hcompleted hk
    · exact (h.completed k hk).2 other hother

/-- the row is inserted, and the run goes on -/
theorem Inv.store (h : Inv s) (hrun : s.runs r = some run) {plan : Plan} (hphase : run.phase = .found plan) {row : RunRow}
    (htask : row.taskId = run.taskId) : Inv ((s.setRow r row).goto r run (.stored plan)) := by
  obtain ⟨hnone, hnew⟩ := h.early r run hrun (by rw [hphase]; trivial)
  refine ⟨fun k other hk => ?_, fun k other hk => ?_, fun k other hk => ?_, fun k other hk hearly => ?_,
    fun k other hk hrunning => ?_, fun k other executors hk hdecided => ?_, fun k hk => ⟨(h.completed k hk).1, fun other hother => ?_⟩,
    h.once⟩
  · rcases update_some hk with ⟨rfl, heq⟩ | ⟨-, hk⟩
    · obtain rfl := Option.some.inj heq
      exact h.owner k run hrun
    · exact h.owner k other hk
  · rcases update_some hk with ⟨rfl, -⟩ | ⟨-, hk⟩
    · exact h.drawn k run hrun
    · exact h.drawn k other hk
  · rcases setRow_some hk with ⟨rfl, -⟩ | ⟨-, hk⟩
    · exact h.drawn k run hrun
    · exact h.stored k other hk
  · rcases update_some hk with ⟨rfl, heq⟩ | ⟨hne, hk⟩
    · obtain rfl := Option.some.inj heq
      exact hearly.elim
    · obtain ⟨hnone', hnew'⟩ := h.early k other hk hearly
      exact ⟨(Function.update_of_ne hne ..).trans hnone', hnew'⟩
  · rcases setRow_some hk with ⟨rfl, rfl⟩ | ⟨hne, hk⟩
    · exact ⟨_, Function.update_self .., htask.symm, trivial⟩
    · obtain ⟨run', hrun', hsame, hopened⟩ := h.running k other hk hrunning
      exact ⟨run', (Function.update_of_ne hne ..).trans hrun', hsame, hopened⟩
  · rcases update_some hk with ⟨rfl, heq⟩ | ⟨-, hk⟩
    · obtain rfl := Option.some.inj heq
      cases hdecided
    · exact h.decided k other executors hk hdecided
  · rcases setRow_some hother with ⟨rfl, -⟩ | ⟨-, hother⟩
    · exact absurd hk hnew
    · exact (h.completed k hk).2 other hother

/-! ## The two transactions -/

/-- the rows and the notifications stay -/
theorem Advances.quiet {s' : State} (hrows : ∀ k row, s'.rows k = some row → s.rows k = some row)
    (hcompletions : s'.completions = s.completions) (houtbox : s'.outbox = s.outbox) : Advances s s' := by
  have hsame {k : ℕ} {row row' : RunRow} (hk : s.rows k = some row) (hk' : s'.rows k = some row') : row' = row :=
    (Option.some.inj (hk.symm.trans (hrows k row' hk'))).symm
  refine ⟨fun k row row' hk hk' => ?_, fun k row' hnone hk' => ?_, fun k row row' hk hk' hne hdrained => ?_,
    Or.inl ⟨hcompletions, houtbox, fun k row row' hk hk' hdone => ?_⟩⟩
  · rw [hsame hk hk']
    exact .stay _
  · rw [hrows k row' hk'] at hnone
    cases hnone
  · rw [hsame hk hk'] at hdrained
    exact absurd hdrained hne
  · rwa [hsame hk hk'] at hdone

/-- the outcome of an open row, as its transaction leaves it -/
inductive Recorded (s : State) (r : ℕ) (complete : Bool) (row : RunRow) : RunRow → Prop where
  | incomplete (row' : RunRow) (hstatus : row'.status = .incomplete) : Recorded s r complete row row'
  | drained (row' : RunRow) (hstatus : row'.status = .drained) (hcomplete : complete = true)
    (hresults : ∀ id ∈ row.targets, (finalResult s.results row.taskId r id).isSome = true)
    (hsummary : row'.summary = some (summarize (finalResult s.results row.taskId r) row.taskId r row.targets)) :
    Recorded s r complete row row'

theorem recordCompletion_cases (r : ℕ) (complete : Bool) (now : ℤ) (s : State) :
    (recordCompletion r complete now s = s ∧ ∀ row, s.rows r = some row → row.status ≠ .running) ∨
    ∃ row row', s.rows r = some row ∧ row.status = .running ∧ Recorded s r complete row row' ∧
      recordCompletion r complete now s = s.setRow r row' := by
  unfold recordCompletion
  cases hrow : s.rows r with
  | none => exact Or.inl ⟨rfl, fun _ hno => by cases hno⟩
  | some row =>
    dsimp only
    by_cases hstatus : row.status = .running
    · rw [if_neg (not_not.2 hstatus)]
      refine Or.inr ?_
      split_ifs with hall
      · simp only [Bool.and_eq_true, List.all_eq_true] at hall
        exact ⟨row, _, rfl, hstatus, .drained _ rfl hall.1.1 hall.2 rfl, rfl⟩
      · exact ⟨row, _, rfl, hstatus, .incomplete _ rfl, rfl⟩
    · rw [if_pos hstatus]
      refine Or.inl ⟨rfl, fun other hother => ?_⟩
      rwa [← Option.some.inj hother]

theorem finishRun_cases (r : ℕ) (now : ℤ) (recipients : String → Bool → List ℕ) (s : State) :
    finishRun r now recipients s = s ∨ ∃ row jobs, s.rows r = some row ∧ row.status = .drained ∧ (∀ job ∈ jobs, job.1 = r) ∧
      finishRun r now recipients s = { s.setRow r { row with status := .completed } with
        completions := r :: s.completions
        outbox := s.outbox ++ jobs } := by
  unfold finishRun
  cases hrow : s.rows r with
  | none => exact Or.inl rfl
  | some row =>
    dsimp only
    by_cases hstatus : row.status = .drained
    · rw [if_neg (not_not.2 hstatus)]
      split
      · split_ifs
        · exact Or.inl rfl
        · refine Or.inr ⟨row, _, rfl, hstatus, fun job hjob => ?_, rfl⟩
          obtain ⟨hmem, -⟩ := List.mem_filter.1 hjob
          obtain ⟨installation, -, rfl⟩ := List.mem_map.1 hmem
          rfl
        · refine Or.inr ⟨row, _, rfl, hstatus, fun job hjob => ?_, rfl⟩
          obtain ⟨hmem, -⟩ := List.mem_filter.1 hjob
          obtain ⟨installation, -, rfl⟩ := List.mem_map.1 hmem
          rfl
      · exact Or.inl rfl
    · rw [if_pos hstatus]
      exact Or.inl rfl

theorem Recorded.status_ne {complete : Bool} {row row' : RunRow} (h : Recorded s r complete row row') :
    row'.status ≠ .running ∧ row'.status ≠ .completed := by
  cases h with
  | incomplete hstatus => rw [hstatus]; exact ⟨nofun, nofun⟩
  | drained hstatus hcomplete hresults hsummary => rw [hstatus]; exact ⟨nofun, nofun⟩

/-- the record of the outcome, before the run goes on -/
theorem recordCompletion_spec (h : Inv s) (hrun : s.runs r = some run) {complete : Bool} {executors : List (String × Executor)}
    (hphase : run.phase = .recording complete executors) (now : ℤ) :
    Inv (recordCompletion r complete now s) ∧ Advances s (recordCompletion r complete now s) ∧
      (recordCompletion r complete now s).runs = s.runs ∧
      ∀ row, (recordCompletion r complete now s).rows r = some row → row.status ≠ .running := by
  rcases recordCompletion_cases r complete now s with ⟨hsame, hclosed⟩ | ⟨row, row', hrow, hstatus, hrecorded, hset⟩
  · rw [hsame]
    exact ⟨h, .quiet (fun _ _ hk => hk) rfl rfl, rfl, hclosed⟩
  · rw [hset]
    obtain ⟨hrunning, hcompleted⟩ := hrecorded.status_ne
    refine ⟨h.setRow hrow hrunning fun hmem => ?_, ⟨fun k old new hk hk' => ?_, fun k new hnone hk' => ?_,
      fun k old new hk hk' hne hdrained => ?_, Or.inl ⟨rfl, rfl, fun k old new hk hk' hdone => ?_⟩⟩, rfl, fun other hother => ?_⟩
    · rw [(h.completed r hmem).2 row hrow] at hstatus
      cases hstatus
    · rcases setRow_some hk' with ⟨rfl, rfl⟩ | ⟨-, hk'⟩
      · obtain rfl := Option.some.inj (hrow.symm.trans hk)
        rw [hstatus]
        cases hrecorded with
        | incomplete hnew => rw [hnew]; exact .giveUp
        | drained hnew hcomplete hresults hsummary => rw [hnew]; exact .drain
      · obtain rfl := Option.some.inj (hk.symm.trans hk')
        exact .stay _
    · rcases setRow_some hk' with ⟨rfl, -⟩ | ⟨-, hk'⟩
      · rw [hrow] at hnone
        cases hnone
      · rw [hk'] at hnone
        cases hnone
    · rcases setRow_some hk' with ⟨rfl, rfl⟩ | ⟨-, hk'⟩
      · obtain rfl := Option.some.inj (hrow.symm.trans hk)
        cases hrecorded with
        | incomplete hnew =>
          rw [hnew] at hdrained
          cases hdrained
        | drained hnew hcomplete hresults hsummary =>
          -- the owner has decided, so nothing was cancelled and every executor has ended well
          subst hcomplete
          obtain ⟨hcancelled, hok⟩ := h.decided k run executors hrun hphase
          refine ⟨⟨run, executors, hrun, hcancelled, hphase, hok⟩, fun id hid => ?_, _, hsummary, summarize_counts _ _ _ _⟩
          obtain ⟨result, hresult⟩ := Option.isSome_iff_exists.1 (hresults id hid)
          exact ⟨result, hresult, finalResult_highest hresult⟩
      · obtain rfl := Option.some.inj (hk.symm.trans hk')
        exact absurd hdrained hne
    · rcases setRow_some hk' with ⟨rfl, rfl⟩ | ⟨-, hk'⟩
      · exact absurd hdone hcompleted
      · obtain rfl := Option.some.inj (hk.symm.trans hk')
        exact hdone
    · rcases setRow_some hother with ⟨-, rfl⟩ | ⟨hne, -⟩
      · exact hrunning
      · exact absurd rfl hne

theorem finishRun_spec (h : Inv s) (r : ℕ) (now : ℤ) (recipients : String → Bool → List ℕ) :
    Inv (finishRun r now recipients s) ∧ Advances s (finishRun r now recipients s) ∧ (finishRun r now recipients s).runs = s.runs := by
  rcases finishRun_cases r now recipients s with hsame | ⟨row, jobs, hrow, hstatus, hjobs, hset⟩
  · rw [hsame]
    exact ⟨h, .quiet (fun _ _ hk => hk) rfl rfl, rfl⟩
  · have hnew : r ∉ s.completions := by
      intro hmem
      rw [(h.completed r hmem).2 row hrow] at hstatus
      cases hstatus
    have hrows : Inv (s.setRow r { row with status := .completed }) := h.setRow hrow (fun hno => by cases hno) fun _ => rfl
    rw [hset]
    refine ⟨⟨hrows.owner, hrows.drawn, hrows.stored, fun k run' hk hearly => ?_, hrows.running, hrows.decided, fun k hk => ?_,
      List.nodup_cons.2 ⟨hnew, h.once⟩⟩, ⟨fun k old new hk hk' => ?_, fun k new hnone hk' => ?_, fun k old new hk hk' hne hdrained => ?_,
      Or.inr ⟨r, jobs, rfl, rfl, hjobs, fun k old new hk hk' hdone => ?_⟩⟩, rfl⟩
    · obtain ⟨hnone, hfree⟩ := hrows.early k run' hk hearly
      refine ⟨hnone, fun hmem => ?_⟩
      rcases List.mem_cons.1 hmem with rfl | hmem
      · have hself : (s.setRow k { row with status := .completed }).rows k = _ := Function.update_self ..
        rw [hself] at hnone
        cases hnone
      · exact hfree hmem
    · rcases List.mem_cons.1 hk with rfl | hk
      · refine ⟨h.stored k row hrow, fun other hother => ?_⟩
        rcases setRow_some hother with ⟨-, rfl⟩ | ⟨hne, -⟩
        · rfl
        · exact absurd rfl hne
      · exact hrows.completed k hk
    · rcases setRow_some hk' with ⟨rfl, rfl⟩ | ⟨-, hk'⟩
      · obtain rfl := Option.some.inj (hrow.symm.trans hk)
        rw [hstatus]
        exact .complete
      · obtain rfl := Option.some.inj (hk.symm.trans hk')
        exact .stay _
    · rcases setRow_some hk' with ⟨rfl, -⟩ | ⟨-, hk'⟩
      · rw [hrow] at hnone
        cases hnone
      · rw [hk'] at hnone
        cases hnone
    · rcases setRow_some hk' with ⟨rfl, rfl⟩ | ⟨-, hk'⟩
      · cases hdrained
      · obtain rfl := Option.some.inj (hk.symm.trans hk')
        exact absurd hdrained hne
    · rcases setRow_some hk' with ⟨rfl, -⟩ | ⟨-, hk'⟩
      · exact Or.inr rfl
      · obtain rfl := Option.some.inj (hk.symm.trans hk')
        exact Or.inl hdone

/-! ## One step -/

/-- a step keeps the invariant, and moves rows and notifications as it may -/
def Upholds (s s' : State) : Prop := Inv s' ∧ Advances s s'

theorem Inv.stays (h : Inv s) : Upholds s s := ⟨h, .quiet (fun _ _ hk => hk) rfl rfl⟩

theorem Inv.goes (h : Inv s) (hrun : s.runs r = some run) {phase : Phase} (hearly : phase.early → run.phase.early)
    (hopened : phase.opened ∨ ∀ row, s.rows r = some row → row.status ≠ .running)
    (hdecided : ∀ executors, phase.Decided executors → run.cancelled = false ∧ ∀ e ∈ executors, e.2 = .ended true) :
    Upholds s (s.goto r run phase) := ⟨h.goto hrun hearly hopened hdecided, .quiet (fun _ _ hk => hk) rfl rfl⟩

theorem Inv.drops (h : Inv s) (hrun : s.runs r = some run) (hclosed : ∀ row, s.rows r = some row → row.status ≠ .running) :
    Upholds s (s.release r run) := ⟨h.release hrun hclosed, .quiet (fun _ _ hk => hk) rfl rfl⟩

/-- only a run between its insert and its record has an open row -/
theorem Inv.closed (h : Inv s) (hrun : s.runs r = some run) (hphase : ¬ run.phase.opened) (row : RunRow)
    (hrow : s.rows r = some row) : row.status ≠ .running := by
  intro hstatus
  obtain ⟨other, hother, -, hopened⟩ := h.running r row hrow hstatus
  obtain rfl := Option.some.inj (hother.symm.trans hrun)
  exact hphase hopened

/-- results come and go -/
theorem Inv.results (h : Inv s) (results : List ResultRow) : Inv { s with results := results } :=
  ⟨h.owner, h.drawn, h.stored, h.early, h.running, h.decided, h.completed, h.once⟩

theorem Advances.results {s' : State} (h : Advances s s') (results : List ResultRow) : Advances s { s' with results := results } :=
  ⟨h.status, h.inserted, h.drained, h.completed⟩

theorem not_decided {phase : Phase} (h : ∀ executors, phase ≠ .recording true executors) (cancelled : Bool)
    (executors : List (String × Executor)) (hdecided : phase.Decided executors) :
    cancelled = false ∧ ∀ e ∈ executors, e.2 = .ended true := absurd hdecided (h executors)

theorem advance_upholds (h : Inv s) (hrun : s.runs r = some run) (fails denied : Bool) (now : ℤ)
    (recipients : String → Bool → List ℕ) (hguard : fails = true → ¬ run.phase.exposed denied) :
    Upholds s (advance r fails denied now recipients run s) := by
  unfold advance
  split
  · rename_i manual actor hphase
    have hearly : run.phase.early := by rw [hphase]; trivial
    have hclosed := h.closed hrun (by rw [hphase]; exact id)
    have hdrop := h.drops hrun hclosed
    split
    · exact hdrop
    · split
      · exact hdrop
      · by_cases hfails : fails = true
        · rw [if_pos hfails]
          exact hdrop
        · rw [if_neg hfails]
          exact h.goes hrun (fun _ => hearly) (Or.inr hclosed) (not_decided (fun _ hno => by cases hno) _)
  · rename_i plan hphase
    have hearly : run.phase.early := by rw [hphase]; trivial
    split_ifs
    · exact h.drops hrun (h.closed hrun (by rw [hphase]; exact id))
    · refine ⟨h.store hrun hphase rfl, ⟨fun k row row' hk hk' => ?_, fun k row' hnone hk' => ?_, fun k row row' hk hk' hne hdrained => ?_,
        Or.inl ⟨rfl, rfl, fun k row row' hk hk' hdone => ?_⟩⟩⟩
      · rcases setRow_some hk' with ⟨rfl, -⟩ | ⟨-, hk'⟩
        · rw [(h.early k run hrun hearly).1] at hk
          cases hk
        · rw [Option.some.inj (hk.symm.trans hk')]
          exact .stay _
      · rcases setRow_some hk' with ⟨-, rfl⟩ | ⟨-, hk'⟩
        · rfl
        · rw [hk'] at hnone
          cases hnone
      · rcases setRow_some hk' with ⟨rfl, -⟩ | ⟨-, hk'⟩
        · rw [(h.early k run hrun hearly).1] at hk
          cases hk
        · rw [Option.some.inj (hk.symm.trans hk')] at hne
          exact absurd hdrained hne
      · rcases setRow_some hk' with ⟨rfl, -⟩ | ⟨-, hk'⟩
        · rw [(h.early k run hrun hearly).1] at hk
          cases hk
        · rwa [Option.some.inj (hk.symm.trans hk')]
  · rename_i plan hphase
    split_ifs with hfails
    · exact absurd (by rw [hphase]; trivial) (hguard hfails)
    · exact h.goes hrun False.elim (Or.inl trivial) (not_decided (fun _ hno => by cases hno) _)
  · rename_i plan hphase
    split_ifs with hfails
    · exact absurd (by rw [hphase]; trivial) (hguard hfails)
    · exact h.goes hrun False.elim (Or.inl trivial) (not_decided (fun _ hno => by cases hno) _)
  · rename_i plan serverId rest executors hphase
    split_ifs with hdenied hfails
    · refine absurd ?_ (hguard hfails)
      rw [hphase]
      exact hdenied
    · have hgo : Upholds s (s.goto r run (.dispatching plan rest executors)) :=
        h.goes hrun False.elim (Or.inl trivial) (not_decided (fun _ hno => by cases hno) _)
      exact ⟨hgo.1.results _, hgo.2.results _⟩
    · exact h.goes hrun False.elim (Or.inl trivial) (not_decided (fun _ hno => by cases hno) _)
  · exact h.goes hrun False.elim (Or.inl trivial) (not_decided (fun _ hno => by cases hno) _)
  · rename_i plan executors hphase
    split_ifs with hended
    · refine h.goes hrun False.elim (Or.inl trivial) fun executors' hdecided => ?_
      obtain ⟨hcomplete, rfl⟩ := Phase.recording.inj hdecided
      simp only [Bool.and_eq_true, List.all_eq_true, beq_iff_eq, Bool.not_eq_true'] at hcomplete
      exact ⟨hcomplete.2, hcomplete.1⟩
    · exact h.stays
  · rename_i complete executors hphase
    split_ifs
    · exact h.stays
    · obtain ⟨hinv, hadvances, hruns, hclosed⟩ := recordCompletion_spec h hrun hphase now
      refine ⟨hinv.goto (hruns ▸ hrun) False.elim (Or.inr hclosed) (not_decided (fun _ hno => by cases hno) _), ?_⟩
      exact ⟨hadvances.status, hadvances.inserted, hadvances.drained, hadvances.completed⟩
  · rename_i hphase
    split_ifs
    · exact h.drops hrun (h.closed hrun (by rw [hphase]; exact id))
    · obtain ⟨hinv, hadvances, hruns⟩ := finishRun_spec h r now recipients
      have hrun' := hruns.symm ▸ hrun
      refine ⟨hinv.release hrun' (hinv.closed hrun' (by rw [hphase]; exact id)), ?_⟩
      exact ⟨hadvances.status, hadvances.inserted, hadvances.drained, hadvances.completed⟩

/-- executors of an open run change -/
theorem executors_uphold (h : Inv s) (hrun : s.runs r = some run) {plan : Plan} {executors executors' : List (String × Executor)}
    (hphase : run.phase.executors = some (plan, executors)) : Upholds s (s.goto r run (run.phase.withExecutors executors')) := by
  cases hp : run.phase with
  | dispatching plan rest executors => exact h.goes hrun False.elim (Or.inl trivial) (not_decided (fun _ hno => by cases hno) _)
  | draining plan executors => exact h.goes hrun False.elim (Or.inl trivial) (not_decided (fun _ hno => by cases hno) _)
  | claimed manual actor => rw [hp] at hphase; cases hphase
  | found plan => rw [hp] at hphase; cases hphase
  | stored plan => rw [hp] at hphase; cases hphase
  | updated plan => rw [hp] at hphase; cases hphase
  | recording complete executors => rw [hp] at hphase; cases hphase
  | finishing => rw [hp] at hphase; cases hphase

theorem attempt_upholds (h : Inv s) (hrun : s.runs r = some run) (i : ℕ) (reply : Reply) (fails : Bool) :
    Upholds s (attempt r i reply fails run s) := by
  unfold attempt
  cases hphase : run.phase.executors with
  | none => exact h.stays
  | some p =>
    obtain ⟨plan, executors⟩ := p
    dsimp only
    split
    · split_ifs
      · exact executors_uphold h hrun hphase
      · exact executors_uphold h hrun hphase
      all_goals
        have hgo (others : List (String × Executor)) : Upholds s (s.goto r run (run.phase.withExecutors others)) :=
          executors_uphold h hrun hphase
        exact ⟨(hgo _).1.results _, (hgo _).2.results _⟩
    · exact h.stays

/-- a run is claimed under an id that nothing has -/
theorem trigger_upholds (h : Inv s) (taskId : String) (manual : Bool) (actor : Option String) :
    Upholds s (step s (.trigger taskId manual actor)) := by
  simp only [step]
  cases hactive : s.active taskId with
  | some r => exact h.stays
  | none =>
    have hnew : s.rows s.fresh = none := by
      cases hrow : s.rows s.fresh with
      | none => rfl
      | some row => exact absurd (h.stored _ row hrow) (Nat.lt_irrefl _)
    refine ⟨⟨fun k other hk => ?_, fun k other hk => ?_, fun k row hk => Nat.lt_succ_of_lt (h.stored k row hk),
      fun k other hk hearly => ?_, fun k row hk hstatus => ?_, fun k other executors hk hdecided => ?_,
      fun k hk => ⟨Nat.lt_succ_of_lt (h.completed k hk).1, (h.completed k hk).2⟩, h.once⟩, .quiet (fun _ _ hk => hk) rfl rfl⟩
    · rcases update_some hk with ⟨rfl, heq⟩ | ⟨-, hk⟩
      · obtain rfl := Option.some.inj heq
        exact Function.update_self ..
      · have howner := h.owner k other hk
        have htask : other.taskId ≠ taskId := by
          intro heq
          rw [heq, hactive] at howner
          cases howner
        exact (Function.update_of_ne htask ..).trans howner
    · rcases update_some hk with ⟨rfl, -⟩ | ⟨-, hk⟩
      · exact Nat.lt_succ_self _
      · exact Nat.lt_succ_of_lt (h.drawn k other hk)
    · rcases update_some hk with ⟨rfl, -⟩ | ⟨-, hk⟩
      · exact ⟨hnew, fun hmem => absurd (h.completed _ hmem).1 (Nat.lt_irrefl _)⟩
      · exact h.early k other hk hearly
    · obtain ⟨other, hother, hrest⟩ := h.running k row hk hstatus
      exact ⟨other, (Function.update_of_ne (Nat.ne_of_lt (h.drawn k other hother)) ..).trans hother, hrest⟩
    · rcases update_some hk with ⟨rfl, heq⟩ | ⟨-, hk⟩
      · obtain rfl := Option.some.inj heq
        cases hdecided
      · exact h.decided k other executors hk hdecided

/-- a cancellation meets no run that its owner has decided complete -/
theorem cancel_upholds (h : Inv s) (taskId : String) (hguard : Guarded s (.cancel taskId)) : Upholds s (step s (.cancel taskId)) := by
  simp only [step]
  cases hactive : s.active taskId with
  | none => exact h.stays
  | some r =>
    cases hrun : s.runs r with
    | none =>
      simp only [hrun]
      exact h.stays
    | some run =>
      simp only [hrun]
      refine ⟨h.replace hrun rfl id ?_ fun executors hdecided => absurd hdecided (hguard r run executors hactive hrun),
        .quiet (fun _ _ hk => hk) rfl rfl⟩
      by_cases hopened : run.phase.opened
      · exact Or.inl hopened
      · exact Or.inr (h.closed hrun hopened)

theorem deleteTask_upholds (h : Inv s) (taskId : String) : Upholds s (step s (.deleteTask taskId)) := by
  have hrows (k : ℕ) (row : RunRow) (hk : (step s (.deleteTask taskId)).rows k = some row) : s.rows k = some row :=
    (Option.filter_eq_some_iff.1 hk).1
  refine ⟨⟨h.owner, h.drawn, fun k row hk => h.stored k row (hrows k row hk), fun k run hk hearly => ?_,
    fun k row hk => h.running k row (hrows k row hk), h.decided,
    fun k hk => ⟨(h.completed k hk).1, fun row hrow => (h.completed k hk).2 row (hrows k row hrow)⟩, h.once⟩, .quiet hrows rfl rfl⟩
  obtain ⟨hnone, hnew⟩ := h.early k run hk hearly
  refine ⟨?_, hnew⟩
  simp only [step, hnone]
  rfl

theorem step_upholds (h : Inv s) (op : Op) (hguard : Guarded s op) : Upholds s (step s op) := by
  cases op with
  | trigger taskId manual actor => exact trigger_upholds h taskId manual actor
  | advance r fails denied now recipients =>
    simp only [step]
    cases hrun : s.runs r with
    | none => exact h.stays
    | some run => exact advance_upholds h hrun fails denied now recipients fun hfails => hguard hfails run hrun
  | execute r i reply fails =>
    simp only [step]
    cases hrun : s.runs r with
    | none => exact h.stays
    | some run => exact attempt_upholds h hrun i reply fails
  | panic r i =>
    simp only [step]
    cases hrun : s.runs r with
    | none => exact h.stays
    | some run =>
      dsimp only
      cases hphase : run.phase.executors with
      | none => exact h.stays
      | some p =>
        dsimp only
        split
        · exact executors_uphold h hrun hphase
        · exact h.stays
  | cancel taskId => exact cancel_upholds h taskId hguard
  | recover r now recipients =>
    obtain ⟨hinv, hadvances, -⟩ := finishRun_spec h r now recipients
    exact ⟨hinv, hadvances⟩
  | edit taskId task =>
    exact ⟨⟨h.owner, h.drawn, h.stored, h.early, h.running, h.decided, h.completed, h.once⟩, .quiet (fun _ _ hk => hk) rfl rfl⟩
  | deleteTask taskId => exact deleteTask_upholds h taskId
  | purge dead => exact ⟨h.results _, .quiet (fun _ _ hk => hk) rfl rfl⟩

end Steps

/-! ## Runs -/

theorem Inv.sound {s : State} (h : Inv s) : Sound s := by
  refine ⟨fun r r' run run' hr hr' htask => ?_, fun r row hrow hstatus => ?_, h.once⟩
  · have howner := h.owner r run hr
    rw [htask, h.owner r' run' hr'] at howner
    exact (Option.some.inj howner).symm
  · obtain ⟨run, hrun, htask, -⟩ := h.running r row hrow hstatus
    exact ⟨run, hrun, htask ▸ h.owner r run hrun⟩

/-- the process has started: no run is active, and `restore_and_start` has closed the rows that were running -/
structure Started (s : State) : Prop where
  active : ∀ taskId, s.active taskId = none
  runs : ∀ r, s.runs r = none
  rows : ∀ r row, s.rows r = some row → r < s.fresh ∧ row.status ≠ .running
  completions : s.completions = []

theorem Started.inv {s : State} (h : Started s) : Inv s := by
  have hruns {r : ℕ} {run : Run} (hrun : s.runs r = some run) : False := by
    rw [h.runs r] at hrun
    cases hrun
  refine ⟨fun r run hrun => (hruns hrun).elim, fun r run hrun => (hruns hrun).elim, fun r row hrow => (h.rows r row hrow).1,
    fun r run hrun => (hruns hrun).elim, fun r row hrow hstatus => absurd hstatus (h.rows r row hrow).2,
    fun r run executors hrun => (hruns hrun).elim, fun r hr => ?_, ?_⟩
  · rw [h.completions] at hr
    cases hr
  · rw [h.completions]
    exact List.nodup_nil

/-- **A task run reaches one outcome.** In every run of the system where no statement fails between the insert of a row and
the spawn of the owner, and no cancellation arrives between the decision of the owner and its record. -/
theorem runs_reach_one_outcome (s : State) (hs : Started s) (ops : List Op) (hops : Along step Guarded s ops) :
    Along step (fun s op => Advances s (step s op) ∧ Sound (step s op)) s ops ∧ Sound (runs step s ops) := by
  have hkeep (s : State) (op : Op) (hs : Inv s) (hop : Guarded s op) : Inv (step s op) := (step_upholds hs op hop).1
  constructor
  · refine Along.of_invariant hkeep (fun s op hs hop => ?_) hs.inv hops
    obtain ⟨hinv, hadvances⟩ := step_upholds hs op hop
    exact ⟨hadvances, hinv.sound⟩
  · exact (hops.invariant hkeep hs.inv).sound

/-! ### A statement that fails, a cancellation that is late -/

def booted : State where
  tasks := fun taskId => if taskId = "backup" then some ⟨"ada", some ["web"], 0⟩ else none
  rows := fun _ => none
  results := []
  active := fun _ => none
  runs := fun _ => none
  outbox := []
  completions := []
  fresh := 0

theorem booted_started : Started booted := ⟨fun _ => rfl, fun _ => rfl, fun _ _ hno => (by cases hno), rfl⟩

/-- the run takes its next statement -/
def next : Op := .advance 0 false false 100 fun _ _ => [7]

def backupRun : List Op :=
  [.trigger "backup" false none, next, next, next, next, next, next, .execute 0 0 (.taskResult 0 false) false, next]

def cutShort : List Op := [.trigger "backup" false none, next, next, .advance 0 true false 100 fun _ _ => [7]]

theorem backup_reaches_completed :
    Along step (fun s op => Advances s (step s op) ∧ Sound (step s op)) booted (backupRun ++ [next, next]) ∧
      Sound (runs step booted (backupRun ++ [next, next])) :=
  runs_reach_one_outcome booted booted_started _ (by
    refine ⟨trivial, ?_, ?_, ?_, ?_, ?_, ?_, trivial, ?_, ?_, ?_, trivial⟩
    all_goals exact fun hno => (by cases hno))

/-- **A row outlives its run.** The update of the task fails after the insert of the row: the guard is dropped, nothing
finalizes the row, and it stays `running`. -/
theorem row_outlives_run :
    ¬ ∀ s, Started s → ∀ ops, Along step (fun s op => Advances s (step s op) ∧ Sound (step s op)) s ops ∧
      Sound (runs step s ops) := by
  intro h
  have hsound := (h booted booted_started cutShort).2
  obtain ⟨run, hrun, -⟩ := hsound.running 0 ⟨"backup", "ada", ["web"], .running, none, none⟩ (by decide) rfl
  have hended : (runs step booted cutShort).runs 0 = none := by decide
  rw [hended] at hrun
  cases hrun

/-- a cancellation between the decision of the owner and its record does not keep the row from `drained` -/
example :
    ((runs step booted (backupRun ++ [.cancel "backup"])).runs 0).map Run.cancelled = some true ∧
      ((runs step booted (backupRun ++ [.cancel "backup", next])).rows 0).map RunRow.status = some .drained := by decide

end ServerBee.TaskRuns
