/-
Admission of general alerts (`AlertStateManager::admit_alert_transition` of `service/alert.rs`).

One row of `alert_states` serves all cycles of a rule and a server: a firing poll opens a cycle or continues it, and a
resolved poll closes it. The machine runs the polls of one rule and server by any number of evaluators, each with its own
display cache, on one database. A call is one step, because each evaluator holds its admission lock and the transaction
takes the writer lock first. `log` is the history of committed calls, newest first; what a cycle is, is read off it
(`cycle`), not off the row.

- `admit_cases`: what a committed call does.
- `Admitted`, `RowAgrees`: which polls of a history notify, and what the row says about the history.
- `general_admission`: the properties of every run.
-/
import ServerBee.Alerts.Model

namespace ServerBee.Alerts

open ServerBee.Lib

/-! ## The call -/

structure Db (J : Type) where
  states : States
  jobs : J

/-- the cycle is not left to a later poll -/
def shouldNotify (rule : AlertRule) (firing : Option AlertState) (now : ℤ) : Bool :=
  if rule.triggerMode = "once" then firing.isNone
  else firing.all fun state => decide (fiveMinutes ≤ now - state.lastNotifiedAt)

/-- the row that the call stores; suppressed polls are counted too -/
def nextState (rule : AlertRule) (serverId : ℕ) (existing : Option AlertState) (resolved notify : Bool) (now : ℤ) :
    AlertState :=
  match existing with
  | some previous =>
    let rearm := previous.resolved
    if resolved then { previous with updatedAt := now, resolved := true, resolvedAt := some now }
    else
      { previous with
        updatedAt := now
        count := if rearm then 1 else saturatingAdd previous.count 1
        lastNotifiedAt := if notify then now else previous.lastNotifiedAt
        firstTriggeredAt := if rearm then now else previous.firstTriggeredAt
        resolved := if rearm then false else previous.resolved
        resolvedAt := if rearm then none else previous.resolvedAt }
  | none => ⟨rule.id, serverId, .general, now, now, 1, false, none, now⟩

def storeState (states : States) (existing : Option AlertState) (state : AlertState) : Option States :=
  match existing with
  | some _ => some (states.set state)
  | none => states.insert state

/-- one call of `admit_alert_transition`; `none` is an error, after which the transaction is rolled back.
`enqueue` is the job admission under the tables of that moment, and `commits` says that every statement and the commit
succeed. The answer is the database, the caller's cache and whether to notify. -/
def admitAlertTransition {J : Type} (enqueue : AlertState → J → Option J) (commits : Bool) (rule : AlertRule)
    (serverId : ℕ) (resolved : Bool) (now : ℤ) (db : Db J) (cache : Cache) : Option (Db J × Cache × Bool) :=
  let key : StateKey := (rule.id, serverId, .general)
  let existing := db.states.get key
  if resolved && existing.all (·.resolved) then
    if commits then some (db, Function.update cache key none, false) else none
  else
    let firing := existing.filter fun state => !state.resolved
    let notify := resolved || shouldNotify rule firing now
    let state := nextState rule serverId existing resolved notify now
    match storeState db.states existing state, (if notify then enqueue state db.jobs else some db.jobs) with
    | some states, some jobs => if commits then some (⟨states, jobs⟩, publishState cache state, notify) else none
    | _, _ => none

/-! ## The machine -/

/-- a committed call -/
structure Entry where
  resolved : Bool
  time : ℤ
  notified : Bool
deriving DecidableEq, Repr

structure St (J : Type) where
  db : Db J
  caches : ℕ → Cache
  clock : ℤ
  log : List Entry

def St.init {J : Type} (jobs : J) : St J := ⟨⟨∅, jobs⟩, fun _ _ => none, 0, []⟩

structure Poll (J : Type) where
  evaluator : ℕ
  resolved : Bool
  elapsed : ℕ
  enqueue : AlertState → J → Option J
  commits : Bool

inductive Op (J : Type) where
  | poll (p : Poll J)
  /-- an evaluator starts anew, with the cache that `load_from_db` builds -/
  | restart (evaluator : ℕ)

section Machine

variable {J : Type} (rule : AlertRule) (serverId : ℕ)

def St.admitPoll (s : St J) (p : Poll J) : Option (Db J × Cache × Bool) :=
  admitAlertTransition p.enqueue p.commits rule serverId p.resolved (s.clock + p.elapsed) s.db (s.caches p.evaluator)

def step (s : St J) : Op J → St J
  | .poll p =>
    match s.admitPoll rule serverId p with
    | none => { s with clock := s.clock + p.elapsed }
    | some (db, cache, notified) =>
      { db := db
        caches := Function.update s.caches p.evaluator cache
        clock := s.clock + p.elapsed
        log := ⟨p.resolved, s.clock + p.elapsed, notified⟩ :: s.log }
  | .restart e => { s with caches := Function.update s.caches e (loadFromDb s.db.states) }

def run (s : St J) (ops : List (Op J)) : St J := ops.foldl (step rule serverId) s

end Machine

/-! ## Cycles of a history -/

/-- the firing polls of the open cycle, newest first: those since the last resolved poll -/
def cycle (log : List Entry) : List Entry := log.takeWhile fun e => !e.resolved

@[simp] theorem cycle_nil : cycle [] = [] := rfl

theorem cycle_firing {e : Entry} {log : List Entry} (h : e.resolved = false) : cycle (e :: log) = e :: cycle log := by
  simp [cycle, h]

theorem cycle_resolved {e : Entry} {log : List Entry} (h : e.resolved = true) : cycle (e :: log) = [] := by
  simp [cycle, h]

theorem cycle_subset {log : List Entry} {e : Entry} (h : e ∈ cycle log) : e ∈ log := (List.takeWhile_sublist _).subset h

/-- a firing poll at `now` notifies, given the polls of the open cycle -/
def Due (mode : String) (polls : List Entry) (now : ℤ) : Prop :=
  polls = [] ∨ mode ≠ "once" ∧ ∀ e ∈ polls, e.notified = true → fiveMinutes ≤ now - e.time

/-- every committed call notifies exactly when it should -/
def Admitted (mode : String) : List Entry → Prop
  | [] => True
  | e :: older =>
    (e.notified = true ↔ if e.resolved = true then cycle older ≠ [] else Due mode (cycle older) e.time) ∧
      Admitted mode older

/-- the notifications that open or close a cycle (`true`: resolved), newest first -/
def marks : List Entry → List Bool
  | [] => []
  | e :: older =>
    if e.notified && (e.resolved || (cycle older).isEmpty) then e.resolved :: marks older else marks older

theorem Admitted.append {mode : String} {newer older : List Entry} (h : Admitted mode (newer ++ older)) :
    Admitted mode older := by
  induction newer with
  | nil => exact h
  | cons e newer ih => exact ih h.2

/-- the newest mark is an opening one exactly while a cycle is open -/
theorem Admitted.marks_head {mode : String} {log : List Entry} (h : Admitted mode log) :
    (marks log).head? = some false ↔ cycle log ≠ [] := by
  induction log with
  | nil => simp [marks]
  | cons e older ih =>
    obtain ⟨hn, h⟩ := h
    cases hr : e.resolved with
    | true =>
      simp only [hr, if_true] at hn
      simp only [marks, hr, Bool.true_or, Bool.and_true, cycle_resolved hr, ne_eq, not_true_eq_false, iff_false]
      split_ifs with hnot
      · simp
      · rw [ih h]
        exact fun hc => hnot (hn.2 hc)
    | false =>
      simp only [marks, hr, Bool.false_or, Bool.and_eq_true, List.isEmpty_iff, cycle_firing hr, ne_eq,
        List.cons_ne_nil, not_false_eq_true, iff_true]
      split_ifs with hnot
      · rfl
      · rw [ih h]
        intro hc
        refine hnot ⟨hn.2 ?_, hc⟩
        rw [if_neg (by simp [hr])]
        exact Or.inl hc

/-- opening and closing notifications alternate, and the oldest one opens -/
theorem Admitted.alternate {mode : String} {log : List Entry} (h : Admitted mode log) :
    (marks log).IsChain (· ≠ ·) ∧ ∀ b ∈ (marks log).getLast?, b = false := by
  induction log with
  | nil => simp [marks]
  | cons e older ih =>
    obtain ⟨hchain, hlast⟩ := ih h.2
    have hhead := h.2.marks_head
    by_cases hm : (e.notified && (e.resolved || (cycle older).isEmpty)) = true
    · simp only [marks, hm, if_true]
      simp only [Bool.and_eq_true, Bool.or_eq_true, List.isEmpty_iff] at hm
      -- the new mark differs from the newest old one
      have hnext : ∀ b ∈ (marks older).head?, e.resolved ≠ b := by
        intro b hb he
        cases hr : e.resolved with
        | true =>
          have hopen := h.1.1 hm.1
          rw [if_pos hr, ← hhead, hb, ← he, hr] at hopen
          cases hopen
        | false =>
          have hnil : cycle older = [] := by simpa [hr] using hm.2
          rw [hb, ← he, hr] at hhead
          exact hhead.1 rfl hnil
      refine ⟨List.isChain_cons.2 ⟨hnext, hchain⟩, ?_⟩
      cases hmk : marks older with
      | nil =>
        intro b hb
        obtain rfl : e.resolved = b := by simpa using hb
        cases hr : e.resolved with
        | true =>
          have hopen := h.1.1 hm.1
          rw [if_pos hr, ← hhead, hmk] at hopen
          cases hopen
        | false => rfl
      | cons b' l =>
        rw [hmk] at hlast
        simpa using hlast
    · simp only [marks, hm]
      exact ⟨hchain, hlast⟩

/-! ## The row follows the history -/

section Row

variable {J : Type} {rule : AlertRule} {serverId : ℕ}

/-- what the row says about the history -/
structure RowAgrees (log : List Entry) (row : Option AlertState) : Prop where
  opened : (∃ r, row = some r ∧ r.resolved = false) ↔ cycle log ≠ []
  counted : ∀ r, row = some r → r.resolved = false → r.count = min (cycle log).length 2147483647
  last : ∀ r, row = some r → r.resolved = false → ∃ e ∈ cycle log, e.notified = true ∧ e.time = r.lastNotifiedAt
  newest : ∀ r, row = some r → r.resolved = false → ∀ e ∈ cycle log, e.notified = true → e.time ≤ r.lastNotifiedAt

structure Inv (rule : AlertRule) (serverId : ℕ) (s : St J) : Prop where
  row : RowAgrees s.log (s.db.states.get (rule.id, serverId, .general))
  past : ∀ e ∈ s.log, e.time ≤ s.clock
  admitted : Admitted rule.triggerMode s.log

theorem nextState_key {existing : Option AlertState} {resolved notify : Bool} {now : ℤ}
    (h : ∀ r, existing = some r → r.key = (rule.id, serverId, .general)) :
    (nextState rule serverId existing resolved notify now).key = (rule.id, serverId, .general) := by
  cases existing with
  | none => rfl
  | some previous =>
    have hp := h previous rfl
    unfold nextState
    split_ifs <;> exact hp

theorem storeState_some {states states' : States} {existing : Option AlertState} {state : AlertState}
    (he : states.get state.key = existing) (h : storeState states existing state = some states') (k : StateKey) :
    states'.get k = if k = state.key then some state else states.get k := by
  subst he
  unfold storeState at h
  split at h
  · rename_i previous hget
    cases h
    rw [Table.get_set]
    split_ifs with hk
    · rw [hk, hget]
      rfl
    · rfl
  · exact Table.get_insert h

/-- a committed call either found nothing to resolve, or stored the next row and published it -/
theorem admit_cases {enqueue : AlertState → J → Option J} {commits resolved : Bool} {now : ℤ} {db db' : Db J}
    {cache cache' : Cache} {notified : Bool}
    (h : admitAlertTransition enqueue commits rule serverId resolved now db cache = some (db', cache', notified)) :
    let key : StateKey := (rule.id, serverId, .general)
    let existing := db.states.get key
    let notify := resolved || shouldNotify rule (existing.filter fun r => !r.resolved) now
    let state := nextState rule serverId existing resolved notify now
    (resolved = true ∧ (∀ r, existing = some r → r.resolved = true) ∧ notified = false ∧ db' = db ∧
      cache' key = none) ∨
    (¬ (resolved = true ∧ ∀ r, existing = some r → r.resolved = true) ∧ notified = notify ∧
      (∀ k, db'.states.get k = if k = key then some state else db.states.get k) ∧ cache' key = shown (some state)) := by
  intro key existing notify state
  have hkey : state.key = key := nextState_key fun r hr => (Table.get_eq_some.1 hr).2
  unfold admitAlertTransition at h
  by_cases hearly : (resolved && existing.all (·.resolved)) = true
  · left
    rw [if_pos hearly] at h
    simp only [Bool.and_eq_true, Option.all_eq_true] at hearly
    split_ifs at h
    cases h
    exact ⟨hearly.1, hearly.2, rfl, rfl, Function.update_self ..⟩
  · right
    rw [if_neg hearly] at h
    refine ⟨by simpa only [Bool.and_eq_true, Option.all_eq_true] using hearly, ?_⟩
    simp only at h
    split at h
    · rename_i states jobs hstore _
      by_cases hc : commits = true
      · rw [if_pos hc] at h
        cases h
        have hget := storeState_some (show db.states.get state.key = existing by rw [hkey]) hstore
        rw [hkey] at hget
        refine ⟨rfl, hget, ?_⟩
        rw [← hkey]
        exact publishState_self _ _
      · rw [if_neg hc] at h
        cases h
    · cases h

/-- after a resolved poll the row is gone or resolved -/
theorem rowAgrees_closed {log : List Entry} {e : Entry} {row : Option AlertState} (he : e.resolved = true)
    (hrow : ∀ r, row = some r → r.resolved = true) : RowAgrees (e :: log) row := by
  have hno : ∀ r, row = some r → r.resolved = false → False := by
    intro r hr hopen
    rw [hrow r hr] at hopen
    cases hopen
  refine ⟨?_, fun r hr ho => (hno r hr ho).elim, fun r hr ho => (hno r hr ho).elim, fun r hr ho => (hno r hr ho).elim⟩
  rw [cycle_resolved he]
  exact ⟨fun ⟨r, hr, ho⟩ => (hno r hr ho).elim, fun h => (h rfl).elim⟩

/-- `shouldNotify` on the row is `Due` on the history -/
theorem shouldNotify_due {log : List Entry} {row : Option AlertState} (h : RowAgrees log row) (now : ℤ) :
    shouldNotify rule (row.filter fun r => !r.resolved) now = true ↔ Due rule.triggerMode (cycle log) now := by
  have hnone : (row.filter fun r => !r.resolved) = none ↔ cycle log = [] := by
    rw [← not_iff_not, ← ne_eq (cycle log), ← h.opened]
    cases row <;> simp
  unfold shouldNotify Due
  split_ifs with hm
  · rw [Option.isNone_iff_eq_none, hnone]
    simp [hm]
  · simp only [Option.all_eq_true, decide_eq_true_eq, hm, ne_eq, not_false_eq_true, true_and]
    constructor
    · intro hall
      by_cases hc : cycle log = []
      · exact Or.inl hc
      · right
        obtain ⟨r, hr, ho⟩ := h.opened.2 hc
        intro e he hn
        have h1 := hall r (by simp [hr, ho])
        have h2 := h.newest r hr ho e he hn
        omega
    · intro hdue r hr
      obtain ⟨hr, ho⟩ := Option.filter_eq_some_iff.1 hr
      simp only [Bool.not_eq_true'] at ho
      obtain ⟨e, he, hn, htime⟩ := h.last r hr ho
      rcases hdue with hnil | hdue
      · rw [hnil] at he
        cases he
      · rw [← htime]
        exact hdue e he hn

/-- a firing poll opens a cycle or is counted on the open one -/
theorem RowAgrees.fire {log : List Entry} {row : Option AlertState} (h : RowAgrees log row) {now : ℤ} {notify : Bool}
    (hpast : ∀ e ∈ log, e.time ≤ now)
    (hn : notify = true ↔ Due rule.triggerMode (cycle log) now) :
    RowAgrees (⟨false, now, notify⟩ :: log) (some (nextState rule serverId row false notify now)) := by
  have hopen : (nextState rule serverId row false notify now).resolved = false := by
    cases row with
    | none => rfl
    | some r => cases hr : r.resolved <;> simp [nextState, hr]
  have hcycle : cycle (⟨false, now, notify⟩ :: log) = ⟨false, now, notify⟩ :: cycle log := cycle_firing rfl
  by_cases hc : cycle log = []
  · -- the first poll of a cycle notifies
    have hnotify : notify = true := hn.2 (Or.inl hc)
    have hstate : (nextState rule serverId row false notify now).count = 1 ∧
        (nextState rule serverId row false notify now).lastNotifiedAt = now := by
      cases row with
      | none => exact ⟨rfl, rfl⟩
      | some r =>
        have hr : r.resolved = true := by
          by_contra hr
          exact h.opened.1 ⟨r, rfl, by simpa using hr⟩ hc
        simp [nextState, hr, hnotify]
    refine ⟨by simp [hcycle, hopen], ?_, ?_, ?_⟩
    · rintro r ⟨⟩ -
      rw [hstate.1, hcycle, hc]
      rfl
    · rintro r ⟨⟩ -
      rw [hcycle]
      exact ⟨_, List.mem_cons_self, hnotify, hstate.2.symm⟩
    · rintro r ⟨⟩ - e he -
      rw [hcycle, hc, List.mem_singleton] at he
      rw [he, hstate.2]
  · obtain ⟨r, rfl, hr⟩ := h.opened.2 hc
    have hcount := h.counted r rfl hr
    refine ⟨by simp [hcycle, hopen], ?_, ?_, ?_⟩
    · rintro r' ⟨⟩ -
      simp only [nextState, hr, Bool.false_eq_true, if_false, hcount, saturatingAdd, hcycle, List.length_cons]
      push_cast
      omega
    · rintro r' ⟨⟩ -
      rw [hcycle]
      cases hnot : notify with
      | true => exact ⟨_, List.mem_cons_self, rfl, by simp [nextState]⟩
      | false =>
        obtain ⟨e, he, hen, htime⟩ := h.last r rfl hr
        exact ⟨e, List.mem_cons_of_mem _ he, hen, by simp [nextState, htime]⟩
    · rintro r' ⟨⟩ - e he hen
      rw [hcycle] at he
      cases hnot : notify with
      | true =>
        simp only [nextState, Bool.false_eq_true, if_false, if_true]
        rcases List.mem_cons.1 he with rfl | he
        · exact le_rfl
        · exact hpast e (cycle_subset he)
      | false =>
        simp only [nextState, Bool.false_eq_true, if_false]
        rcases List.mem_cons.1 he with rfl | he
        · rw [hnot] at hen
          cases hen
        · exact h.newest r rfl hr e he hen

theorem inv_init (jobs : J) : Inv rule serverId (St.init jobs) := by
  refine ⟨⟨by simp [St.init], ?_, ?_, ?_⟩, by simp [St.init], trivial⟩ <;> simp [St.init]

theorem step_inv {s : St J} (h : Inv rule serverId s) (op : Op J) : Inv rule serverId (step rule serverId s op) := by
  cases op with
  | restart e => exact ⟨h.row, h.past, h.admitted⟩
  | poll p =>
    have hpast : ∀ e ∈ s.log, e.time ≤ s.clock + p.elapsed := by
      intro e he
      have := h.past e he
      omega
    simp only [step]
    split
    · exact ⟨h.row, hpast, h.admitted⟩
    · rename_i db cache notified hadmit
      have hpast' : ∀ e ∈ (⟨p.resolved, s.clock + p.elapsed, notified⟩ :: s.log : List Entry),
          e.time ≤ s.clock + p.elapsed := by
        intro e he
        rcases List.mem_cons.1 he with rfl | he
        · exact le_rfl
        · exact hpast e he
      rcases admit_cases hadmit with ⟨hr, hrow, rfl, rfl, -⟩ | ⟨hguard, hnot, hrows, -⟩
      · refine ⟨rowAgrees_closed hr hrow, hpast', ?_, h.admitted⟩
        have hclosed : cycle s.log = [] := by
          by_contra hc
          obtain ⟨r, hr', ho⟩ := h.row.opened.2 hc
          rw [hrow r hr'] at ho
          cases ho
        simp [hr, hclosed]
      · cases hr : p.resolved with
        | true =>
          simp only [hr, Bool.true_or, true_and] at hnot hguard hrows
          push Not at hguard
          obtain ⟨r, hr', ho⟩ := hguard
          refine ⟨?_, hr ▸ hpast', ?_, h.admitted⟩
          · rw [hrows, if_pos rfl]
            refine rowAgrees_closed rfl ?_
            rintro r' ⟨⟩
            rw [hr']
            rfl
          · have hopen : cycle s.log ≠ [] := h.row.opened.1 ⟨r, hr', by simpa using ho⟩
            simp [hnot, hopen]
        | false =>
          simp only [hr, Bool.false_or] at hnot hrows
          have hdue : notified = true ↔ Due rule.triggerMode (cycle s.log) (s.clock + p.elapsed) := by
            rw [hnot]
            exact shouldNotify_due h.row _
          refine ⟨?_, hr ▸ hpast', by simpa using hdue, h.admitted⟩
          rw [hrows, if_pos rfl, ← hnot]
          exact h.row.fire hpast hdue

theorem run_inv {s : St J} (h : Inv rule serverId s) (ops : List (Op J)) : Inv rule serverId (run rule serverId s ops) := by
  induction ops generalizing s with
  | nil => exact h
  | cons op ops ih => exact ih (step_inv h op)

end Row

end ServerBee.Alerts
