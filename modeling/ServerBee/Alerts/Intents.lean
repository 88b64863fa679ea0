/-
Event alerts (`service/alert_event_intents.rs`).

Event-driven rules are not polled. `capture` runs in the transaction of the producer of an event and stores one intent for
each matching rule; `replay` later turns the intents, oldest first, into alert states and jobs. A call of `capture` or of
`replay_one` is one step: both hold SQLite's writer lock, and `replay_one` the admission lock as well. Any number of
replay passes may be under way at once, each on the list of intents that it read at its start.

`none` is an error, after which the transaction is rolled back. Rules, servers and maintenance windows are read only.
`decodes` says of a text whether it is a valid `rules_json`.
-/
import Mathlib.Data.List.MinMax
import ServerBee.Reminders.Model

namespace ServerBee.Alerts

open ServerBee.Lib
open ServerBee.Reminders (Maintenance isInMaintenanceAt ruleCoversServer)

/-! ## Tables -/

/-- `SECURITY_RULE_TYPES` -/
def securityRuleTypes : List String := ["ssh_brute_force_detected", "ssh_new_ip_login", "port_scan_detected"]

/-- a rule and a server -/
abbrev Dimension := ℕ × ℕ

structure Intent where
  id : ℕ
  ruleId : ℕ
  serverId : ℕ
  eventType : String
  triggerMode : String
  firstTriggeredAt : ℤ
  occurredAt : ℤ
  count : ℤ
  shouldNotify : Bool
deriving DecidableEq, Repr

def Intent.dimension (i : Intent) : Dimension := (i.ruleId, i.serverId)

structure Server where
  id : ℕ
  name : String
deriving DecidableEq, Repr

structure EventDb (J : Type) where
  rules : Table AlertRule.id
  servers : Table Server.id
  maintenances : List Maintenance
  states : States
  intents : Table Intent.id
  /-- AUTOINCREMENT: ids are not used again -/
  nextIntent : ℕ
  jobs : J

section Calls

variable {J : Type}

/-! ## Capture -/

/-- the newest pending intent of a dimension -/
def newestPending (intents : Table Intent.id) (d : Dimension) : Option Intent :=
  (intents.rows.filter fun i => i.dimension = d).argmax Intent.id

/-- when the cycle began, the last event or notification, and the count -/
def previousEvent (db : EventDb J) (d : Dimension) : Option (ℤ × ℤ × ℤ) :=
  ((newestPending db.intents d).map fun state => (state.firstTriggeredAt, state.occurredAt, state.count)) <|>
    ((db.states.get (d.1, d.2, .general)).filter fun state => !state.resolved).map fun state =>
      (state.firstTriggeredAt, state.lastNotifiedAt, state.count)

def shouldNotifyEvent (rule : AlertRule) (previous : Option (ℤ × ℤ × ℤ)) (occurredAt : ℤ) : Bool :=
  previous.all fun (_, last, _) => rule.triggerMode != "once" && decide (fiveMinutes ≤ occurredAt - last)

def newIntent (db : EventDb J) (rule : AlertRule) (serverId : ℕ) (eventType : String) (occurredAt : ℤ) : Intent :=
  let previous := previousEvent db (rule.id, serverId)
  { id := db.nextIntent
    ruleId := rule.id
    serverId := serverId
    eventType := eventType
    triggerMode := rule.triggerMode
    firstTriggeredAt := previous.elim occurredAt fun (first, _, _) => first
    occurredAt := occurredAt
    count := previous.elim 1 fun (_, _, count) => saturatingAdd count 1
    shouldNotify := shouldNotifyEvent rule previous occurredAt }

def ruleMatches (rule : AlertRule) (serverId : ℕ) (eventType : String) : Bool :=
  rule.items.any (fun item => item.ruleType == eventType) &&
    !rule.items.any (fun item => securityRuleTypes.contains item.ruleType) && ruleCoversServer rule serverId

variable (decodes : String → Bool)

def captureRule (serverId : ℕ) (eventType : String) (occurredAt : ℤ) (db : EventDb J) (rule : AlertRule) :
    Option (EventDb J) :=
  if !decodes rule.rulesJson then none
  else if !ruleMatches rule serverId eventType then some db
  else (db.intents.insert (newIntent db rule serverId eventType occurredAt)).map fun intents =>
    { db with intents := intents, nextIntent := db.nextIntent + 1 }

/-- `now` is the wall clock, by which maintenance is decided -/
def capture (db : EventDb J) (serverId : ℕ) (eventType : String) (occurredAt now : ℤ) : Option (EventDb J) :=
  if isInMaintenanceAt db.maintenances serverId now then some db
  else (db.rules.rows.filter (·.enabled)).foldlM (captureRule decodes serverId eventType occurredAt) db

/-! ## Replay -/

/-- one call of `replay_one`: what `mobile_alert_push` does under the tables of that moment, and whether every statement
and the commit succeed -/
structure Call (J : Type) where
  enqueue : AlertRule → AlertState → String → J → Option J
  commits : Bool

/-- a committed replay: the row for the display cache, and whether the external channels are tried -/
structure Replayed (J : Type) where
  db : EventDb J
  published : Option AlertState
  notified : Bool

/-- the row of an intent -/
def Intent.state (item : Intent) : AlertState :=
  { ruleId := item.ruleId
    serverId := item.serverId
    eventKey := .general
    firstTriggeredAt := item.firstTriggeredAt
    lastNotifiedAt := item.occurredAt
    count := item.count
    resolved := false
    resolvedAt := none
    updatedAt := item.occurredAt }

/-- an intent whose rule is enabled and whose server exists -/
def admitIntent (call : Call J) (db : EventDb J) (item : Intent) (rule : AlertRule) (srv : Server) :
    Option (Replayed J) :=
  match storeState db.states (db.states.get item.state.key) item.state,
      (if item.shouldNotify then call.enqueue { rule with triggerMode := item.triggerMode } item.state srv.name db.jobs
        else some db.jobs) with
  | some states, some jobs =>
    some ⟨{ db with states := states, jobs := jobs, intents := db.intents.delete fun i => i.id == item.id },
      some item.state, item.shouldNotify⟩
  | _, _ => none

/-- the rule and the server of an intent, unless one is gone or the rule is disabled -/
def intentTarget (db : EventDb J) (item : Intent) : Option (AlertRule × Server) :=
  match db.rules.get item.ruleId, db.servers.get item.serverId with
  | some rule, some srv => if rule.enabled then some (rule, srv) else none
  | _, _ => none

def replayOne (call : Call J) (db : EventDb J) (id : ℕ) : Option (Replayed J) :=
  if !call.commits then none
  else
    match db.intents.get id with
    | none => some ⟨db, none, false⟩
    | some item =>
      match intentTarget db item with
      | none => some ⟨{ db with intents := db.intents.delete fun i => i.id == id }, none, false⟩
      | some (rule, srv) => admitIntent call db item rule srv

/-- what a pass changes: the database, the display cache, and the dimensions that have failed in it -/
structure Progress (J : Type) where
  db : EventDb J
  cache : Cache
  failed : List Dimension

def replayItem (call : Call J) (p : Progress J) (item : Intent) : Progress J :=
  if item.dimension ∈ p.failed then p
  else
    match replayOne call p.db item.id with
    | none => { p with failed := item.dimension :: p.failed }
    | some r => { p with db := r.db, cache := r.published.elim p.cache (publishState p.cache) }

/-- ORDER BY id -/
def byId (intents : Table Intent.id) : List Intent := intents.rows.mergeSort fun i j => decide (i.id ≤ j.id)

/-- the intents that a pass reads -/
def pendingBatch (db : EventDb J) : List Intent := (byId db.intents).take 100

/-- the whole pass, without other calls in between -/
def replay (calls : Intent → Call J) (db : EventDb J) (cache : Cache) : Progress J :=
  (pendingBatch db).foldl (fun p item => replayItem (calls item) p item) ⟨db, cache, []⟩

/-! ## What a call changes -/

theorem captureRule_cases {decodes : String → Bool} {serverId : ℕ} {eventType : String} {occurredAt : ℤ}
    {db db' : EventDb J} {rule : AlertRule} (h : captureRule decodes serverId eventType occurredAt db rule = some db') :
    db' = db ∨ ∃ intents, db.intents.insert (newIntent db rule serverId eventType occurredAt) = some intents ∧
      db' = { db with intents := intents, nextIntent := db.nextIntent + 1 } := by
  unfold captureRule at h
  split_ifs at h
  · exact Or.inl (Option.some.inj h).symm
  · obtain ⟨intents, hins, rfl⟩ := Option.map_eq_some_iff.1 h
    exact Or.inr ⟨intents, hins, rfl⟩

/-- a committed `replay_one` finds the intent gone, drops it with its rule or server, or admits it -/
theorem replayOne_cases {call : Call J} {db : EventDb J} {id : ℕ} {r : Replayed J}
    (h : replayOne call db id = some r) :
    (db.intents.get id = none ∧ r.db = db) ∨
    ∃ item, db.intents.get id = some item ∧
      ((intentTarget db item = none ∧ r.db = { db with intents := db.intents.delete fun i => i.id == id }) ∨
        ∃ target states jobs, intentTarget db item = some target ∧
          storeState db.states (db.states.get item.state.key) item.state = some states ∧
          r.db = { db with states := states, jobs := jobs, intents := db.intents.delete fun i => i.id == id }) := by
  unfold replayOne at h
  split_ifs at h
  cases hget : db.intents.get id with
  | none =>
    rw [hget] at h
    cases h
    exact Or.inl ⟨rfl, rfl⟩
  | some item =>
    rw [hget] at h
    refine Or.inr ⟨item, rfl, ?_⟩
    obtain ⟨-, hid⟩ := Table.get_eq_some.1 hget
    cases htarget : intentTarget db item with
    | none =>
      simp only [htarget, Option.some.injEq] at h
      exact Or.inl ⟨rfl, h ▸ rfl⟩
    | some target =>
      simp only [htarget, admitIntent] at h
      split at h
      · rename_i states jobs hstore henq
        cases h
        exact Or.inr ⟨target, states, jobs, rfl, hstore, by rw [hid]⟩
      · cases h

/-- what no replay changes -/
theorem replayOne_frame {call : Call J} {db : EventDb J} {id : ℕ} {r : Replayed J}
    (h : replayOne call db id = some r) :
    r.db.rules = db.rules ∧ r.db.servers = db.servers ∧ r.db.nextIntent = db.nextIntent := by
  rcases replayOne_cases h with ⟨-, h⟩ | ⟨item, -, ⟨-, h⟩ | ⟨_, states, jobs, -, -, h⟩⟩ <;> rw [h] <;>
    exact ⟨rfl, rfl, rfl⟩

/-- a committed replay leaves all other intents, and not its own -/
theorem replayOne_intents {call : Call J} {db : EventDb J} {id : ℕ} {r : Replayed J}
    (h : replayOne call db id = some r) {i : Intent} : i ∈ r.db.intents ↔ i ∈ db.intents ∧ i.id ≠ id := by
  rcases replayOne_cases h with ⟨hnone, h⟩ | ⟨item, -, ⟨-, h⟩ | ⟨_, states, jobs, -, -, h⟩⟩ <;> rw [h]
  · exact ⟨fun hi => ⟨hi, Table.get_eq_none.1 hnone i hi⟩, fun hi => hi.1⟩
  · rw [Table.mem_delete, beq_eq_false_iff_ne]
  · rw [Table.mem_delete, beq_eq_false_iff_ne]

/-! ## The batch -/

theorem mem_byId {intents : Table Intent.id} {i : Intent} : i ∈ byId intents ↔ i ∈ intents := by
  rw [byId, List.mem_mergeSort, Table.mem_rows]

theorem byId_sorted (intents : Table Intent.id) : (byId intents).Pairwise fun i j => i.id < j.id := by
  have hle : (byId intents).Pairwise fun i j => decide (i.id ≤ j.id) = true :=
    List.pairwise_mergeSort (fun a b c hab hbc => by simp only [decide_eq_true_eq] at *; omega)
      (fun a b => by simp only [Bool.or_eq_true, decide_eq_true_eq]; omega) _
  have hne : (byId intents).Pairwise fun i j => i.id ≠ j.id := by
    have hnodup : ((byId intents).map Intent.id).Nodup :=
      ((List.mergeSort_perm intents.rows _).map Intent.id).nodup_iff.2 intents.unique
    exact List.pairwise_map.1 hnodup
  exact (hle.and hne).imp fun h => lt_of_le_of_ne (of_decide_eq_true h.1) h.2

theorem pendingBatch_subset {db : EventDb J} {i : Intent} (h : i ∈ pendingBatch db) : i ∈ db.intents :=
  mem_byId.1 (List.mem_of_mem_take h)

/-- a prefix of a list in id order is decided by how many intents are older -/
theorem mem_take_iff {l : List Intent} (hl : l.Pairwise fun i j => i.id < j.id) {n : ℕ} {i : Intent} :
    i ∈ l.take n ↔ i ∈ l ∧ l.countP (fun j => decide (j.id < i.id)) < n := by
  induction l generalizing n with
  | nil => simp
  | cons a l ih =>
    obtain ⟨hfirst, hl⟩ := List.pairwise_cons.1 hl
    cases n with
    | zero => simp
    | succ n =>
      have hnone : l.countP (fun j => decide (j.id < a.id)) = 0 :=
        List.countP_eq_zero.2 fun j hj => by simpa using (hfirst j hj).le
      rw [List.take_succ_cons, List.mem_cons, List.mem_cons, ih hl]
      constructor
      · rintro (rfl | ⟨hi, hlt⟩)
        · exact ⟨Or.inl rfl, by simp [hnone]⟩
        · exact ⟨Or.inr hi, by rw [List.countP_cons_of_pos (by simpa using hfirst i hi)]; omega⟩
      · rintro ⟨rfl | hi, hlt⟩
        · exact Or.inl rfl
        · rw [List.countP_cons_of_pos (by simpa using hfirst i hi)] at hlt
          exact Or.inr ⟨hi, by omega⟩

theorem mem_take_of_lt {l : List Intent} (hl : l.Pairwise fun i j => i.id < j.id) {n : ℕ} {i j : Intent}
    (hj : j ∈ l.take n) (hi : i ∈ l) (hlt : i.id < j.id) : i ∈ l.take n := by
  have hle : l.countP (fun k => decide (k.id < i.id)) ≤ l.countP fun k => decide (k.id < j.id) :=
    List.countP_mono_left fun k _ hk => by simp only [decide_eq_true_eq] at *; omega
  exact (mem_take_iff hl).2 ⟨hi, hle.trans_lt ((mem_take_iff hl).1 hj).2⟩

/-- the batch: the pending intents with fewer than a hundred older ones -/
theorem mem_pendingBatch {db : EventDb J} {i : Intent} :
    i ∈ pendingBatch db ↔ i ∈ db.intents ∧ db.intents.rows.countP (fun j => decide (j.id < i.id)) < 100 := by
  rw [pendingBatch, mem_take_iff (byId_sorted db.intents), mem_byId, byId,
    (List.mergeSort_perm db.intents.rows _).countP_eq]

theorem pendingBatch_closed {db : EventDb J} {i j : Intent} (hj : j ∈ pendingBatch db) (hi : i ∈ db.intents)
    (hlt : i.id < j.id) : i ∈ pendingBatch db :=
  mem_take_of_lt (byId_sorted db.intents) hj (mem_byId.2 hi) hlt

theorem pendingBatch_sorted (db : EventDb J) : (pendingBatch db).Pairwise fun i j => i.id < j.id :=
  (byId_sorted db.intents).sublist (List.take_sublist _ _)

end Calls

/-! ## The machine -/

/-- a replay pass under way: the intents still to do, and the failed dimensions -/
structure Pass where
  rest : List Intent
  failed : List Dimension
deriving DecidableEq, Repr

structure EventSt (J : Type) where
  db : EventDb J
  cache : Cache
  passes : ℕ → Pass
  clock : ℤ
  /-- every intent ever captured, newest first -/
  log : List Intent

inductive EventOp (J : Type) where
  /-- an event, `elapsed` after the one before; the producer may fail to commit -/
  | capture (serverId : ℕ) (eventType : String) (elapsed : ℕ) (now : ℤ) (commits : Bool)
  | setMaintenances (maintenances : List Maintenance)
  /-- a pass reads its intents -/
  | begin (pass : ℕ)
  /-- a pass comes to its next intent -/
  | next (pass : ℕ) (call : Call J)

section Machine

variable {J : Type} (decodes : String → Bool)

def EventSt.init (rules : Table AlertRule.id) (servers : Table Server.id) (maintenances : List Maintenance)
    (states : States) (jobs : J) : EventSt J :=
  { db := ⟨rules, servers, maintenances, states, ∅, 0, jobs⟩
    cache := loadFromDb states
    passes := fun _ => ⟨[], []⟩
    clock := 0
    log := [] }

/-- the intents that a capture has added -/
def addedIntents (before after : EventDb J) : List Intent := after.intents.rows.drop before.intents.rows.length

def EventSt.takeNext (s : EventSt J) (pass : ℕ) (call : Call J) : EventSt J :=
  match (s.passes pass).rest with
  | [] => s
  | item :: rest =>
    let p := replayItem call ⟨s.db, s.cache, (s.passes pass).failed⟩ item
    { s with db := p.db, cache := p.cache, passes := Function.update s.passes pass ⟨rest, p.failed⟩ }

def eventStep (s : EventSt J) : EventOp J → EventSt J
  | .capture serverId eventType elapsed now commits =>
    let occurredAt := s.clock + elapsed
    match capture decodes s.db serverId eventType occurredAt now, commits with
    | some db, true => { s with db := db, clock := occurredAt, log := (addedIntents s.db db).reverse ++ s.log }
    | _, _ => { s with clock := occurredAt }
  | .setMaintenances maintenances => { s with db := { s.db with maintenances := maintenances } }
  | .begin pass => { s with passes := Function.update s.passes pass ⟨pendingBatch s.db, []⟩ }
  | .next pass call => s.takeNext pass call

def eventRun (s : EventSt J) (ops : List (EventOp J)) : EventSt J := ops.foldl (eventStep decodes) s

/-- the captured events of a dimension, newest first -/
def EventSt.events (s : EventSt J) (d : Dimension) : List Intent := s.log.filter fun i => i.dimension = d

end Machine

end ServerBee.Alerts
