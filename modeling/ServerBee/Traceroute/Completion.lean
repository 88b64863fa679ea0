/-
When a request ends once.

The thread sends the same updates whatever the task does (`sends`); the schedule only decides where the task's own update gets
in. `Shape` says, in each phase of the task, what is in the queue and what is still to come, and whether the steps so far were
in time: the update of a timeout was sent only when the thread had no callback left, and its last run fails. A request ends
once exactly when, moreover, no run of the thread fails after its last round.
-/
import ServerBee.Traceroute.Model

namespace ServerBee.Traceroute

open ServerBee.Lib
open ServerBee.Firewall (IpAddr)
open ServerBee.Probes (isMonitorSafeAddr)

variable {η : Type}

/-! ## What is asked of the updates -/

abbrev Queue (η : Type) := List (Option PrivilegeMode × Update η)

def Incomplete (queue : Queue η) : Prop := ∀ u ∈ queue, u.2.completed = false

/-- the last update, and no other, is marked as the final one -/
def EndsOnce (queue : Queue η) : Prop :=
  ∃ before last, queue = before ++ [last] ∧ last.2.completed = true ∧ Incomplete before

theorem endsOnce_concat {queue : Queue η} {u : Option PrivilegeMode × Update η} :
    EndsOnce (queue ++ [u]) ↔ u.2.completed = true ∧ Incomplete queue := by
  constructor
  · rintro ⟨before, last, heq, hlast, hbefore⟩
    obtain ⟨hqueue, hu⟩ := List.append_inj' heq rfl
    rw [hqueue, List.singleton_inj.1 hu]
    exact ⟨hlast, hbefore⟩
  · rintro ⟨hu, hqueue⟩
    exact ⟨queue, u, rfl, hu, hqueue⟩

theorem incomplete_append {queue queue' : Queue η} : Incomplete (queue ++ queue') ↔ Incomplete queue ∧ Incomplete queue' := by
  simp [Incomplete, or_imp, forall_and]

/-- whatever comes before a part that ends once must be incomplete -/
theorem EndsOnce.append {queue queue' : Queue η} (h : EndsOnce queue') : EndsOnce (queue ++ queue') ↔ Incomplete queue := by
  obtain ⟨before, last, rfl, hlast, hbefore⟩ := h
  rw [← List.append_assoc, endsOnce_concat, incomplete_append]
  exact ⟨fun h => h.2.1, fun h => ⟨hlast, h, hbefore⟩⟩

/-- nothing may follow an update that is marked as the final one -/
theorem endsOnce_split {queue queue' : Queue η} {u : Option PrivilegeMode × Update η} (hu : u.2.completed = true) :
    EndsOnce (queue ++ u :: queue') ↔ queue' = [] ∧ Incomplete queue := by
  rcases List.eq_nil_or_concat queue' with rfl | ⟨queue', last, rfl⟩
  · simp [endsOnce_concat, hu]
  · have hassoc : queue ++ u :: (queue' ++ [last]) = (queue ++ u :: queue') ++ [last] := by simp
    rw [List.concat_eq_append, hassoc, endsOnce_concat]
    constructor
    · intro h
      have hfalse := h.2 u (List.mem_append_right _ List.mem_cons_self)
      rw [hu] at hfalse
      cases hfalse
    · intro h
      simp at h

namespace Request

variable (r : Request η)

/-! ## What the thread sends -/

def fallsBack : Bool :=
  match r.privileged.outcome with
  | .error e => isPrivilegeError e
  | _ => false

/-- the runs of the thread -/
def modes : List PrivilegeMode := if r.fallsBack then [.privileged, .unprivileged] else [.privileged]

/-- the run that is finally reported -/
def lastMode : PrivilegeMode := if r.fallsBack then .unprivileged else .privileged

def Fails : Prop := (r.run r.lastMode).outcome ≠ .ok

/-- the updates of a run, after round `n` -/
def roundUpdates (mode : PrivilegeMode) : ℕ → List (List η) → Queue η
  | _, [] => []
  | n, hops :: rounds => (some mode, r.roundUpdate (n + 1) hops) :: roundUpdates mode (n + 1) rounds

/-- the updates that the thread is still to send -/
def toCome : Thread η → Queue η
  | .running .privileged n rounds =>
    r.roundUpdates .privileged n rounds ++ if r.fallsBack then r.roundUpdates .unprivileged 0 r.fallback.rounds else []
  | .running .unprivileged n rounds => r.roundUpdates .unprivileged n rounds
  | .returned _ => []

def sends : Queue η := r.toCome (.running .privileged 0 r.privileged.rounds)

variable {r}

theorem roundUpdates_incomplete {mode : PrivilegeMode} {n : ℕ} {rounds : List (List η)} (hn : n < defaultMaxRounds) :
    Incomplete (r.roundUpdates mode n rounds) ↔ n + rounds.length < defaultMaxRounds := by
  induction rounds generalizing n with
  | nil => simp [roundUpdates, Incomplete, hn]
  | cons hops rounds ih =>
    have hfirst : (r.roundUpdate (n + 1) hops).completed = false ↔ n + 1 < defaultMaxRounds := by
      simp [roundUpdate]
    simp only [roundUpdates, Incomplete, List.forall_mem_cons, hfirst, List.length_cons]
    by_cases hlast : n + 1 < defaultMaxRounds
    · have hrest := ih hlast
      rw [Incomplete] at hrest
      rw [hrest]
      omega
    · constructor
      · intro h
        exact absurd h.1 hlast
      · intro h
        omega

theorem roundUpdates_endsOnce {mode : PrivilegeMode} {n : ℕ} {rounds : List (List η)} (hn : n < defaultMaxRounds)
    (hfull : n + rounds.length = defaultMaxRounds) : EndsOnce (r.roundUpdates mode n rounds) := by
  induction rounds generalizing n with
  | nil => exact absurd hfull hn.ne
  | cons hops rounds ih =>
    rw [List.length_cons] at hfull
    by_cases hlast : n + 1 < defaultMaxRounds
    · have hrest := ih hlast (by omega)
      have hfirst : Incomplete [(some mode, r.roundUpdate (n + 1) hops)] := by
        simpa [Incomplete, roundUpdate] using hlast
      exact hrest.append.2 hfirst
    · have hnil : rounds = [] := List.eq_nil_of_length_eq_zero (by omega)
      rw [hnil]
      exact ⟨[], _, rfl, decide_eq_true (not_lt.1 hlast), List.forall_mem_nil _⟩

/-- a run that fails, or that another one follows, must not have made all its rounds -/
def FailsEarly (run : TrippyRun η) : Prop := run.outcome ≠ .ok → run.rounds.length < defaultMaxRounds

variable (r)

theorem fallsBack_fails (h : r.fallsBack = true) : r.privileged.outcome ≠ .ok := by
  intro hok
  rw [fallsBack, hok] at h
  cases h

/-- the updates of the thread are all incomplete when no run fails late, and the last one fails -/
theorem sends_incomplete : Incomplete r.sends ↔ (∀ mode ∈ r.modes, FailsEarly (r.run mode)) ∧ r.Fails := by
  have hlength : ∀ run : TrippyRun η, run.rounds.length < defaultMaxRounds ↔ FailsEarly run ∧ run.outcome ≠ .ok := by
    intro run
    refine ⟨fun hlt => ⟨fun _ => hlt, fun hok => ?_⟩, fun h => h.1 h.2⟩
    exact absurd (run.full hok) hlt.ne
  have hrounds : ∀ mode, Incomplete (r.roundUpdates mode 0 (r.run mode).rounds) ↔
      FailsEarly (r.run mode) ∧ (r.run mode).outcome ≠ .ok := by
    intro mode
    rw [roundUpdates_incomplete (by decide), Nat.zero_add, hlength]
  have hfirst : Incomplete (r.roundUpdates .privileged 0 r.privileged.rounds) ↔ _ := hrounds .privileged
  have hsecond : Incomplete (r.roundUpdates .unprivileged 0 r.fallback.rounds) ↔ _ := hrounds .unprivileged
  cases hback : r.fallsBack with
  | false => simpa [sends, toCome, modes, Fails, lastMode, hback] using hfirst
  | true =>
    have hfails : (r.run .privileged).outcome ≠ .ok := r.fallsBack_fails hback
    simp only [sends, toCome, modes, Fails, lastMode, hback, if_true, incomplete_append, hfirst, hsecond]
    simp [hfails, and_assoc]

/-- when the last run returns without an error, its last update is the only final one, unless the run before it failed late -/
theorem sends_endsOnce (hok : ¬ r.Fails) : EndsOnce r.sends ↔ ∀ mode ∈ r.modes, FailsEarly (r.run mode) := by
  have hfull : ∀ mode, (r.run mode).outcome = .ok → EndsOnce (r.roundUpdates mode 0 (r.run mode).rounds) := by
    intro mode h
    exact roundUpdates_endsOnce (by decide) ((Nat.zero_add _).trans ((r.run mode).full h))
  rw [Fails, not_not] at hok
  cases hback : r.fallsBack with
  | false =>
    have hmode : r.lastMode = .privileged := by simp [lastMode, hback]
    rw [hmode] at hok
    have hends : EndsOnce (r.roundUpdates .privileged 0 r.privileged.rounds) := hfull .privileged hok
    have hearly : FailsEarly (r.run .privileged) := fun hne => absurd hok hne
    simp [sends, toCome, modes, hback, hends, hearly]
  | true =>
    have hmode : r.lastMode = .unprivileged := by simp [lastMode, hback]
    rw [hmode] at hok
    have hends : EndsOnce (r.roundUpdates .unprivileged 0 r.fallback.rounds) := hfull .unprivileged hok
    have hearly : FailsEarly (r.run .unprivileged) := fun hne => absurd hok hne
    have hfirst : FailsEarly (r.run .privileged) ↔ r.privileged.rounds.length < defaultMaxRounds := by
      simp [FailsEarly, run, r.fallsBack_fails hback]
    have hrounds : Incomplete (r.roundUpdates .privileged 0 r.privileged.rounds) ↔ _ := roundUpdates_incomplete (by decide)
    simp only [sends, toCome, modes, hback, if_true, hends.append, hrounds, Nat.zero_add]
    simp [hfirst, hearly]

/-- the rounds of the run that is finally reported -/
def reportedRounds (queue : Queue η) : List ℕ := (queue.filter fun u => decide (u.1 = some r.lastMode)).map fun u => u.2.round

theorem rounds_of_run (mode : PrivilegeMode) (n : ℕ) (rounds : List (List η)) :
    (r.roundUpdates mode n rounds).map (fun u => u.2.round) = List.range' (n + 1) rounds.length := by
  induction rounds generalizing n with
  | nil => rfl
  | cons hops rounds ih =>
    rw [roundUpdates, List.map_cons, ih, List.length_cons, List.range'_succ]
    rfl

theorem mode_of_run {mode : PrivilegeMode} {n : ℕ} {rounds : List (List η)} {u : Option PrivilegeMode × Update η}
    (h : u ∈ r.roundUpdates mode n rounds) : u.1 = some mode := by
  induction rounds generalizing n with
  | nil => cases h
  | cons hops rounds ih =>
    rcases List.mem_cons.1 h with rfl | h
    · rfl
    · exact ih h

/-- the updates of another run are not counted -/
theorem reportedRounds_run (n : ℕ) (mode : PrivilegeMode) (rounds : List (List η)) :
    r.reportedRounds (r.roundUpdates mode n rounds) = if mode = r.lastMode then List.range' (n + 1) rounds.length else [] := by
  unfold reportedRounds
  split
  next hlast =>
    rw [List.filter_eq_self.2, rounds_of_run]
    intro u hu
    rw [mode_of_run r hu, hlast]
    exact decide_eq_true rfl
  next hlast =>
    rw [List.filter_eq_nil_iff.2, List.map_nil]
    intro u hu
    rw [mode_of_run r hu]
    simpa using hlast

theorem reportedRounds_append (queue queue' : Queue η) :
    r.reportedRounds (queue ++ queue') = r.reportedRounds queue ++ r.reportedRounds queue' := by
  simp [reportedRounds]

theorem reportedRounds_sends : r.reportedRounds r.sends = List.range' 1 (r.run r.lastMode).rounds.length := by
  cases hback : r.fallsBack with
  | false =>
    have hmode : r.lastMode = .privileged := by simp [lastMode, hback]
    simp [sends, toCome, hback, reportedRounds_run, hmode, run]
  | true =>
    have hmode : r.lastMode = .unprivileged := by simp [lastMode, hback]
    simp [sends, toCome, hback, reportedRounds_append, reportedRounds_run, hmode, run]

/-! ## The runs of a request -/

/-- the thread has no callback left to make -/
def Silent : Thread η → Prop
  | .running .privileged _ rounds => rounds = [] ∧ (r.fallsBack = true → r.fallback.rounds = [])
  | .running .unprivileged _ rounds => rounds = []
  | .returned _ => True

theorem silent_iff (thread : Thread η) : r.Silent thread ↔ r.toCome thread = [] := by
  have hnil : ∀ mode n rounds, r.roundUpdates mode n rounds = [] ↔ rounds = [] := by
    intro mode n rounds
    cases rounds <;> simp [roundUpdates]
  cases thread with
  | running mode n rounds =>
    cases mode with
    | privileged => simp [Silent, toCome, hnil]
    | unprivileged => simp [Silent, toCome, hnil]
  | returned result => simp [Silent, toCome]

/-- the update of a timeout is sent when the thread is silent, and its last run fails -/
def InTime (s : State η) (op : Op) : Prop :=
  op = .send → s.task = .reporting .timeout → ∀ thread, s.thread = some thread → r.Silent thread ∧ r.Fails

/-- where the thread can be -/
def Reached : Thread η → Prop
  | .running .privileged _ _ => True
  | .running .unprivileged _ _ => r.fallsBack = true
  | .returned result => result = .ok ↔ ¬ r.Fails

/-- what the phase of the task says of the queue; `P` says that the steps so far were in time -/
inductive Shape (P : Prop) : State η → Prop where
  | pending {task thread queue} : task = .waiting ∨ task = .reporting .timeout → P → r.Reached thread →
      queue ++ r.toCome thread = r.sends → Shape P ⟨task, some thread, queue⟩
  | failed {reason result} : reason ≠ .timeout → P → r.Fails → Shape P ⟨.reporting reason, some (.returned result), r.sends⟩
  | done {result} : P → ¬ r.Fails → Shape P ⟨.finished, some (.returned result), r.sends⟩
  | reported {reason result} : P → r.Fails →
      Shape P ⟨.finished, some (.returned result), r.sends ++ [(none, r.terminalUpdate reason)]⟩
  | timedOut {thread before later} : r.Reached thread → before ++ later ++ r.toCome thread = r.sends →
      (P ↔ later ++ r.toCome thread = [] ∧ r.Fails) →
      Shape P ⟨.finished, some thread, before ++ (none, r.terminalUpdate .timeout) :: later⟩

variable {r}

theorem fails_iff {m : PrivilegeMode} (hback : r.fallsBack = decide (m = .unprivileged)) :
    r.Fails ↔ (r.run m).outcome ≠ .ok := by
  cases m <;> simp [Fails, lastMode, hback]

/-- where a run returns to -/
theorem reached_afterRun {mode : PrivilegeMode} {n : ℕ} (h : r.Reached (.running mode n [])) :
    r.Reached (r.afterRun mode (r.run mode).outcome) ∧
      r.toCome (r.afterRun mode (r.run mode).outcome) = r.toCome (.running mode n []) := by
  cases mode with
  | privileged =>
    cases houtcome : r.privileged.outcome with
    | ok =>
      have hback : r.fallsBack = false := by simp [fallsBack, houtcome]
      simp [run, houtcome, afterRun, Reached, toCome, roundUpdates, hback, fails_iff (m := .privileged) hback]
    | panicked text =>
      have hback : r.fallsBack = false := by simp [fallsBack, houtcome]
      simp [run, houtcome, afterRun, Reached, toCome, roundUpdates, hback, fails_iff (m := .privileged) hback]
    | error e =>
      have hback : r.fallsBack = isPrivilegeError e := by simp [fallsBack, houtcome]
      cases hprivilege : isPrivilegeError e with
      | true => simp [run, houtcome, afterRun, Reached, toCome, roundUpdates, hback, hprivilege]
      | false =>
        rw [hprivilege] at hback
        simp [run, houtcome, afterRun, Reached, toCome, roundUpdates, hback, hprivilege, fails_iff (m := .privileged) hback]
  | unprivileged =>
    have hfails : r.Fails ↔ r.fallback.outcome ≠ .ok := fails_iff (m := .unprivileged) h
    cases houtcome : r.fallback.outcome with
    | ok => simp [run, houtcome, afterRun, Reached, toCome, roundUpdates, hfails]
    | panicked text => simp [run, houtcome, afterRun, Reached, toCome, roundUpdates, hfails]
    | error e => simp [run, houtcome, afterRun, Reached, toCome, roundUpdates, hfails]

/-- one step of the thread -/
theorem step_thread (task : Phase) {thread : Thread η} (queue : Queue η) (h : r.Reached thread) : ∃ thread' new,
    r.step ⟨task, some thread, queue⟩ .thread = ⟨task, some thread', queue ++ new⟩ ∧ r.Reached thread' ∧
    new ++ r.toCome thread' = r.toCome thread := by
  cases thread with
  | returned result => exact ⟨.returned result, [], by simp [step], h, rfl⟩
  | running mode n rounds =>
    cases rounds with
    | cons hops rounds =>
      refine ⟨.running mode (n + 1) rounds, [(some mode, r.roundUpdate (n + 1) hops)], rfl, ?_, ?_⟩
      · cases mode <;> exact h
      · cases mode <;> simp [toCome, roundUpdates]
    | nil =>
      refine ⟨r.afterRun mode (r.run mode).outcome, [], by simp [step], ?_, ?_⟩
      · exact (reached_afterRun h).1
      · exact (reached_afterRun h).2

theorem Shape.congr {P Q : Prop} {s : State η} (h : r.Shape P s) (hPQ : P ↔ Q) : r.Shape Q s := by
  rwa [← propext hPQ]

theorem Shape.thread {P : Prop} {s : State η} (h : r.Shape P s) : r.Shape P (r.step s .thread) := by
  cases h with
  | @pending task thread queue hopen hP hreached hqueue =>
    obtain ⟨thread', new, hstep, hreached', hnew⟩ := step_thread task queue hreached
    rw [hstep]
    refine .pending hopen hP hreached' ?_
    rw [List.append_assoc, hnew, hqueue]
  | failed hreason hP hfails => exact .failed hreason hP hfails
  | done hP hok => exact .done hP hok
  | reported hP hfails => exact .reported hP hfails
  | @timedOut thread before later hreached hqueue hP =>
    obtain ⟨thread', new, hstep, hreached', hnew⟩ :=
      step_thread .finished (before ++ (none, r.terminalUpdate .timeout) :: later) hreached
    rw [hstep, List.append_assoc, List.cons_append]
    refine .timedOut hreached' ?_ ?_
    · rw [← List.append_assoc, List.append_assoc, hnew, hqueue]
    · rw [List.append_assoc, hnew]
      exact hP

theorem Shape.join {P : Prop} {s : State η} (h : r.Shape P s) : r.Shape P (r.step s .join) := by
  cases h with
  | @pending task thread queue hopen hP hreached hqueue =>
    rcases hopen with rfl | rfl
    · cases thread with
      | running mode n rounds => exact .pending (Or.inl rfl) hP hreached hqueue
      | returned result =>
        have hsent : queue = r.sends := (List.append_nil queue).symm.trans hqueue
        subst hsent
        cases result with
        | ok => exact .done hP (hreached.1 rfl)
        | error msg =>
          have hfails : r.Fails := by
            by_contra hok
            cases hreached.2 hok
          have hreason : Reason.failed msg ≠ .timeout := nofun
          exact .failed hreason hP hfails
        | panicked text =>
          have hfails : r.Fails := by
            by_contra hok
            cases hreached.2 hok
          have hreason : Reason.panicked text ≠ .timeout := nofun
          exact .failed hreason hP hfails
    · exact .pending (Or.inr rfl) hP hreached hqueue
  | failed hreason hP hfails => exact .failed hreason hP hfails
  | done hP hok => exact .done hP hok
  | reported hP hfails => exact .reported hP hfails
  | timedOut hreached hqueue hP => exact .timedOut hreached hqueue hP

theorem Shape.timeout {P : Prop} {s : State η} (h : r.Shape P s) : r.Shape P (r.step s .timeout) := by
  cases h with
  | @pending task thread queue hopen hP hreached hqueue =>
    rcases hopen with rfl | rfl
    · cases thread with
      | running mode n rounds => exact .pending (Or.inr rfl) hP hreached hqueue
      | returned result => exact .pending (Or.inl rfl) hP hreached hqueue
    · exact .pending (Or.inr rfl) hP hreached hqueue
  | failed hreason hP hfails => exact .failed hreason hP hfails
  | done hP hok => exact .done hP hok
  | reported hP hfails => exact .reported hP hfails
  | timedOut hreached hqueue hP => exact .timedOut hreached hqueue hP

theorem Shape.send {P : Prop} {s : State η} (h : r.Shape P s) : r.Shape (P ∧ r.InTime s .send) (r.step s .send) := by
  cases h with
  | @pending task thread queue hopen hP hreached hqueue =>
    rcases hopen with rfl | rfl
    · refine .pending (Or.inl rfl) ⟨hP, ?_⟩ hreached hqueue
      rintro - ⟨⟩
    · have hall : queue ++ [] ++ r.toCome thread = r.sends := by rwa [List.append_nil]
      refine Shape.timedOut hreached hall ?_
      rw [List.nil_append, ← silent_iff]
      constructor
      · rintro ⟨-, h⟩
        exact h rfl rfl thread rfl
      · rintro h
        refine ⟨hP, ?_⟩
        rintro - - thread' ⟨⟩
        exact h
  | failed hreason hP hfails =>
    refine .reported ⟨hP, fun _ htask => ?_⟩ hfails
    exact absurd (Phase.reporting.inj htask) hreason
  | done hP hok => exact .done ⟨hP, fun _ htask => nomatch htask⟩ hok
  | reported hP hfails => exact .reported ⟨hP, fun _ htask => nomatch htask⟩ hfails
  | timedOut hreached hqueue hP =>
    refine .timedOut hreached hqueue ?_
    rw [← hP]
    exact and_iff_left fun _ htask => nomatch htask

theorem Shape.step {P : Prop} {s : State η} (h : r.Shape P s) (op : Op) : r.Shape (P ∧ r.InTime s op) (r.step s op) := by
  have hother : op ≠ .send → (P ↔ P ∧ r.InTime s op) := fun hne => (and_iff_left fun hop => absurd hop hne).symm
  cases op with
  | thread => exact h.thread.congr (hother nofun)
  | join => exact h.join.congr (hother nofun)
  | timeout => exact h.timeout.congr (hother nofun)
  | send => exact h.send

theorem Shape.runs {P : Prop} {s : State η} (h : r.Shape P s) (ops : List Op) :
    r.Shape (P ∧ Along r.step r.InTime s ops) (runs r.step s ops) := by
  induction ops generalizing P s with
  | nil => exact h.congr (and_iff_left trivial).symm
  | cons op ops ih => exact (ih (h.step op)).congr and_assoc

/-! ## Requests -/

variable (r)

/-- the target has an address that may be traced -/
def Traced : Prop := ∃ addr, resolveTarget r.lookupHost r.target = .ok addr ∧ isMonitorSafeAddr addr = true

variable {r}

theorem start_traced (h : r.Traced) : r.start = ⟨.waiting, some (.running .privileged 0 r.privileged.rounds), []⟩ := by
  obtain ⟨addr, hresolve, hsafe⟩ := h
  simp [start, hresolve, hsafe]

theorem start_refused (h : ¬ r.Traced) : ∃ reason, reason ≠ .timeout ∧ r.start = ⟨.reporting reason, none, []⟩ := by
  cases hresolve : resolveTarget r.lookupHost r.target with
  | error e => exact ⟨.dns e, nofun, by simp [start, hresolve]⟩
  | ok addr =>
    have hunsafe : isMonitorSafeAddr addr = false := Bool.eq_false_iff.2 fun hsafe => h ⟨addr, hresolve, hsafe⟩
    exact ⟨.disallowed, nofun, by simp [start, hresolve, hunsafe]⟩

/-- a request that is refused sends one update, and nothing is too late -/
theorem refused_runs (reason : Reason) (ops : List Op) :
    (runs r.step ⟨.reporting reason, none, []⟩ ops = ⟨.reporting reason, none, []⟩ ∨
      runs r.step ⟨.reporting reason, none, []⟩ ops = ⟨.finished, none, [(none, r.terminalUpdate reason)]⟩) ∧
    Along r.step r.InTime ⟨.reporting reason, none, []⟩ ops := by
  have hfinished : ∀ ops, runs r.step ⟨.finished, none, [(none, r.terminalUpdate reason)]⟩ ops =
      ⟨.finished, none, [(none, r.terminalUpdate reason)]⟩ ∧
      Along r.step r.InTime ⟨.finished, none, [(none, r.terminalUpdate reason)]⟩ ops := by
    intro ops
    induction ops with
    | nil => exact ⟨rfl, trivial⟩
    | cons op ops ih => cases op <;> exact ⟨ih.1, fun _ _ _ h => (nomatch h), ih.2⟩
  induction ops with
  | nil => exact ⟨Or.inl rfl, trivial⟩
  | cons op ops ih =>
    cases op with
    | send => exact ⟨Or.inr (hfinished ops).1, fun _ _ _ h => (nomatch h), (hfinished ops).2⟩
    | _ => exact ⟨ih.1, fun _ _ _ h => (nomatch h), ih.2⟩

theorem reportedRounds_terminal (queue queue' : Queue η) (reason : Reason) :
    r.reportedRounds (queue ++ (none, r.terminalUpdate reason) :: queue') = r.reportedRounds (queue ++ queue') := by
  simp [reportedRounds]

/-- a traced request, when the task and its thread are done -/
theorem Shape.finished {P : Prop} {s : State η} (h : r.Shape P s) (hfinished : s.Finished) :
    (EndsOnce s.queue ↔ (∀ mode ∈ r.modes, FailsEarly (r.run mode)) ∧ P) ∧
      r.reportedRounds s.queue = List.range' 1 (r.run r.lastMode).rounds.length := by
  cases h with
  | pending hopen =>
    rcases hopen with rfl | rfl
    · cases hfinished.1
    · cases hfinished.1
  | failed => cases hfinished.1
  | done hP hok =>
    rw [r.sends_endsOnce hok, reportedRounds_sends]
    exact ⟨(and_iff_left hP).symm, rfl⟩
  | @reported reason result hP hfails =>
    have hfinal : (r.terminalUpdate reason).completed = true := rfl
    rw [endsOnce_split hfinal, sends_incomplete, reportedRounds_terminal, List.append_nil, reportedRounds_sends]
    refine ⟨?_, rfl⟩
    simp [hP, hfails]
  | @timedOut thread before later hreached hqueue hP =>
    have hnone : r.toCome thread = [] := by
      cases thread with
      | running mode n rounds => exact absurd rfl (hfinished.2 mode n rounds)
      | returned result => rfl
    have hfinal : (r.terminalUpdate .timeout).completed = true := rfl
    rw [hnone, List.append_nil] at hqueue hP
    rw [endsOnce_split hfinal, hP, reportedRounds_terminal, hqueue, reportedRounds_sends]
    refine ⟨?_, rfl⟩
    constructor
    · rintro ⟨rfl, hbefore⟩
      rw [List.append_nil] at hqueue
      obtain ⟨hearly, hfails⟩ := r.sends_incomplete.1 (hqueue ▸ hbefore)
      exact ⟨hearly, rfl, hfails⟩
    · rintro ⟨hearly, rfl, hfails⟩
      rw [List.append_nil] at hqueue
      exact ⟨rfl, hqueue ▸ r.sends_incomplete.2 ⟨hearly, hfails⟩⟩

/-- **When a request ends once.** Whatever its surroundings do, and in whatever order the task and its thread take their steps,
the updates of a request hold exactly one that is marked as the final one, as their last, and the rounds of the run that is
finally reported count from 1, if and only if no run of the thread fails after its last round, and the update of a timeout is
sent when the thread has no callback left to make and its last run fails. -/
theorem ends_once_iff (r : Request η) (ops : List Op) (hfinished : (r.after ops).Finished) :
    (EndsOnce (r.after ops).queue ∧ ∃ n, r.reportedRounds (r.after ops).queue = List.range' 1 n) ↔
      (r.Traced → ∀ mode ∈ r.modes, FailsEarly (r.run mode)) ∧ Along r.step r.InTime r.start ops := by
  by_cases htraced : r.Traced
  · have hshape : r.Shape True r.start := by
      rw [start_traced htraced]
      exact .pending (Or.inl rfl) trivial trivial rfl
    obtain ⟨hends, hrounds⟩ := (hshape.runs ops).finished hfinished
    rw [true_and] at hends
    change EndsOnce (r.after ops).queue ↔ _ at hends
    rw [and_iff_left ⟨_, hrounds⟩, hends]
    simp [htraced]
  · obtain ⟨reason, -, hstart⟩ := start_refused htraced
    obtain ⟨hruns, hintime⟩ := refused_runs (r := r) reason ops
    rw [after, hstart] at hfinished ⊢
    rcases hruns with hruns | hruns
    · rw [hruns] at hfinished
      cases hfinished.1
    · rw [hruns]
      refine iff_of_true ⟨?_, 0, rfl⟩ ⟨fun h => absurd h htraced, hintime⟩
      exact ⟨[], _, rfl, rfl, List.forall_mem_nil _⟩

end Request

/-! ## Single requests -/

def fiveRounds : TrippyRun ℕ where
  rounds := [[1], [2], [3], [4], [5]]
  outcome := .ok
  bounded := by decide
  full := fun _ => rfl

/-- two rounds are reported, and then the run fails -/
def brokenRun : TrippyRun ℕ where
  rounds := [[1], [2]]
  outcome := .error ⟨.other, "unknown interface"⟩
  bounded := by decide
  full := nofun

def request (privileged : TrippyRun ℕ) : Request ℕ where
  requestId := "req-1"
  target := "8.8.8.8".toList
  os := .linux
  lookupHost := fun _ => .error "no lookup of a literal address"
  privileged
  fallback := fiveRounds

theorem traced_request (privileged : TrippyRun ℕ) : (request privileged).Traced := by
  have hparse : Probes.parseAddr "8.8.8.8".toList = some ⟨.v4, 0x08080808, by decide⟩ := by decide
  refine ⟨⟨.v4, 0x08080808, by decide⟩, ?_, by decide⟩
  simp only [request, resolveTarget, hparse]

theorem after_request (privileged : TrippyRun ℕ) (ops : List Request.Op) : (request privileged).after ops =
    runs (request privileged).step ⟨.waiting, some (.running .privileged 0 privileged.rounds), []⟩ ops := by
  rw [Request.after, Request.start_traced (traced_request privileged)]
  rfl

/-- the thread reports two rounds, the task gives up, and then the run fails -/
theorem ends_once_late : EndsOnce ((request brokenRun).after [.thread, .thread, .timeout, .send, .thread]).queue := by
  have hfinished : ((request brokenRun).after [.thread, .thread, .timeout, .send, .thread]).Finished := by
    rw [after_request]
    exact ⟨rfl, nofun⟩
  have hearly : ∀ mode ∈ (request brokenRun).modes, Request.FailsEarly ((request brokenRun).run mode) := by
    have hmodes : (request brokenRun).modes = [.privileged] := rfl
    intro mode hmode
    rw [hmodes, List.mem_singleton] at hmode
    rw [hmode]
    exact fun _ => (by decide : 2 < 5)
  have hintime : Along (request brokenRun).step (request brokenRun).InTime (request brokenRun).start
      [.thread, .thread, .timeout, .send, .thread] := by
    rw [Request.start_traced (traced_request brokenRun)]
    refine ⟨nofun, nofun, nofun, ?_, nofun, trivial⟩
    rintro - - thread ⟨⟩
    exact ⟨⟨rfl, nofun⟩, nofun⟩
  exact (((request brokenRun).ends_once_iff _ hfinished).2 ⟨fun _ => hearly, hintime⟩).1

/-- the task gives up, and the thread goes on to its last round -/
theorem timeout_ends_twice : ¬ ∀ (r : Request ℕ) (ops : List Request.Op), (r.after ops).Finished →
    EndsOnce (r.after ops).queue ∧ ∃ n, r.reportedRounds (r.after ops).queue = List.range' 1 n := by
  intro h
  have hclaim := h (request fiveRounds) ([.timeout, .send] ++ List.replicate 6 .thread)
  rw [after_request] at hclaim
  obtain ⟨hends, -⟩ := hclaim ⟨rfl, nofun⟩
  have hfinal : ((request fiveRounds).terminalUpdate .timeout).completed = true := rfl
  change EndsOnce ([] ++ (none, (request fiveRounds).terminalUpdate .timeout) ::
    (some .privileged, (request fiveRounds).roundUpdate 1 [1]) :: _) at hends
  exact List.cons_ne_nil _ _ ((endsOnce_split hfinal).1 hends).1

end ServerBee.Traceroute
