/-
Does the agent end up with the blocks of the list?

`effect` is what a message does to the entries that an agent holds when nothing goes wrong, and `settled` what the agent
will hold once its channel is empty. Outside a reconcile of the agent, a block that covers it is settled or about to be
pushed, and what is settled is a block that covers it or about to be withdrawn (`Agrees`). Two things break this: a sync
whose snapshot misses a change that was already pushed, and an addition pushed after the removal of its block was.

- `handle_effect`: the agent does what `effect` says.
- `advance_agrees`: the steps of the tasks keep the agreement, if they are timely.
- `blocklist_converges`: at rest the agent holds exactly the blocks that cover it.
- `sync_resurrects_block`: a snapshot from before a delete, sent after it.
-/
import ServerBee.Firewall.Distribution
import ServerBee.Firewall.Mirror
import ServerBee.Lib.Run

namespace ServerBee.Firewall

open ServerBee.Lib

/-! ## What a message does to the entries -/

def effect (held : Set BlockEntry) : ServerMessage → Set BlockEntry
  | .blocklistReset => ∅
  | .blocklistSync entries => {x | x ∈ entries}
  | .blocklistAdd entry => {x | (x ∈ held ∧ x.id ≠ entry.id) ∨ x = entry}
  | .blocklistRemove id => {x | x ∈ held ∧ x.id ≠ id}

def Agent.held (a : Agent) : Set BlockEntry := {x | x ∈ a.desired}

def noFaults : Faults := fun _ => none

theorem boots_noFaults (k : Kernel) : Boots noFaults k := ⟨rfl, fun _ => rfl, rfl, rfl, fun _ _ => rfl⟩

theorem ensureReady_noFaults {a : Agent} (h : a.Sound) :
    ∃ a', ensureReady noFaults a = (none, a') ∧ a'.desired = a.desired ∧ a'.externalIp = a.externalIp ∧ a'.kernel.Ready := by
  obtain ⟨⟨hd, hip, -, -⟩, hready, hiff⟩ := ensureReady_spec noFaults h
  have hnone : (ensureReady noFaults a).1 = none := hiff.2 (Or.inr (boots_noFaults a.kernel))
  exact ⟨(ensureReady noFaults a).2, Prod.ext hnone rfl, hd, hip, hready hnone⟩

theorem handleReset_effect (a : Agent) :
    (handleReset noFaults a).2.Sound ∧ (handleReset noFaults a).2.held = ∅ := by
  set k := (runNft none (.flushSet .blockV6) (runNft none (.flushSet .blockV4) a.kernel).2).2 with hk
  have hwipe : unconditionalWipe noFaults a.kernel = runNft none .deleteTable k := rfl
  have hdel : runNft none .deleteTable k = (.ok (), none) := by cases k <;> rfl
  simp only [handleReset, hwipe, hdel]
  exact ⟨fun h => (by cases h), Set.eq_empty_of_forall_notMem fun x => Table.not_mem_empty x⟩

theorem handleSync_effect (T : IpText) {a : Agent} (h : a.Sound) {entries : List BlockEntry}
    (hids : (entries.map BlockEntry.id).Nodup) (haccept : ∀ e ∈ entries, check T e.target a.externalIp = none)
    (incomingOrder orphanOrder : Order) :
    (handleSync T noFaults incomingOrder orphanOrder a entries).2.Sound ∧
      (handleSync T noFaults incomingOrder orphanOrder a entries).2.held = {x | x ∈ entries} := by
  obtain ⟨a', ha', -, hip, hready⟩ := ensureReady_noFaults h
  obtain ⟨hdesired, -, hready', -⟩ := after_sync T noFaults hids hready incomingOrder orphanOrder
  simp only [handleSync, ha']
  refine ⟨fun _ => hready', Set.ext fun x => ?_⟩
  refine (hdesired x).trans ⟨?_, fun hx => Or.inl ⟨hx, hip ▸ haccept x hx, rfl⟩⟩
  rintro (⟨hx, -⟩ | ⟨-, -, hkeep⟩)
  · exact hx
  · exact absurd rfl hkeep

theorem handleAdd_effect (T : IpText) {a : Agent} (h : a.Sound) {entry : BlockEntry}
    (haccept : check T entry.target a.externalIp = none) :
    (handleAdd T noFaults a entry).2.Sound ∧
      (handleAdd T noFaults a entry).2.held = effect a.held (.blocklistAdd entry) := by
  obtain ⟨a', ha', hd, hip, hready⟩ := ensureReady_noFaults h
  obtain ⟨k, hk, hkready, -⟩ := runNft_add entry.set entry.target hready
  have hadd : addElement noFaults entry a'.kernel = (.ok (), k) := hk
  simp only [handleAdd, ha', hip, haccept, hadd]
  refine ⟨fun _ => hkready, Set.ext fun x => ?_⟩
  rw [hd]
  exact mem_upsert

theorem handleRemove_effect {a : Agent} (h : a.Sound) (id : ℕ) :
    (handleRemove noFaults a id).2.Sound ∧
      (handleRemove noFaults a id).2.held = effect a.held (.blocklistRemove id) := by
  unfold handleRemove
  cases hget : a.desired.get id with
  | none =>
    refine ⟨h, Set.ext fun x => ⟨fun hx => ⟨hx, Table.get_eq_none.1 hget x hx⟩, And.left⟩⟩
  | some entry =>
    obtain ⟨k, hk, hkready, -⟩ := runNft_delete entry.set entry.target a.kernel
    have hdel : deleteElement noFaults entry a.kernel = (.ok (), k) := hk
    simp only [hdel]
    exact ⟨fun hr => hkready (h hr), Set.ext fun x => mem_remove⟩

/-- the agent does what `effect` says -/
theorem handle_effect (T : IpText) {a : Agent} (h : a.Sound) {m : ServerMessage} (hids : (m.entries.map BlockEntry.id).Nodup)
    (haccept : ∀ e ∈ m.entries, check T e.target a.externalIp = none) (incomingOrder orphanOrder : Order) :
    (handle T noFaults incomingOrder orphanOrder a m).2.Sound ∧
      (handle T noFaults incomingOrder orphanOrder a m).2.held = effect a.held m := by
  cases m with
  | blocklistReset => exact handleReset_effect a
  | blocklistSync entries => exact handleSync_effect T h hids haccept incomingOrder orphanOrder
  | blocklistAdd entry => exact handleAdd_effect T h (haccept entry (List.mem_singleton_self entry))
  | blocklistRemove id => exact handleRemove_effect h id

/-! ## What is on the way -/

/-- the task will push the change of the row to the agent -/
def Task.pushes (n : ℕ) (change : Change) (row : BlockRow) : Task → Prop
  | .committed c r => c = change ∧ r = row
  | .push c r rest => c = change ∧ r = row ∧ ∃ conn ∈ rest, conn.serverId = n ∧ firewallMinProtocol ≤ conn.protocolVersion
  | _ => False

/-- the task has sent the agent a reset and not yet its sync -/
def Task.resets (n : ℕ) : Task → Prop
  | .resetSent m _ => m = n
  | .allowed m _ => m = n
  | .loaded m _ _ => m = n
  | _ => False

namespace Net

variable (s : Net) (n : ℕ)

/-- what the agent will hold once its channel is empty -/
def settled : Set BlockEntry := (s.channels n).foldl effect (s.agents n).held

def pending (change : Change) (row : BlockRow) : Prop := row.covers n = true ∧ ∃ t, (s.tasks t).pushes n change row

def resetting : Prop := ∃ t, (s.tasks t).resets n

/-- connected with a high enough protocol version and the firewall capability -/
def eligible : Prop :=
  (∃ conn ∈ s.conns, conn.serverId = n ∧ firewallMinProtocol ≤ conn.protocolVersion) ∧
    ∃ caps, s.caps n = some caps ∧ hasCapability caps capFirewallBlock = true

/-- the entries of the blocks that cover the agent -/
def covering : Set BlockEntry := {x | ∃ row ∈ s.rows, row.covers n = true ∧ row.entry = x}

end Net

structure Converging (s : Net) (n : ℕ) : Prop where
  present : ∀ row ∈ s.rows, row.covers n = true → row.entry ∈ s.settled n ∨ s.pending n .created row
  absent : ∀ x ∈ s.settled n, ∃ row, row.covers n = true ∧ row.entry = x ∧ (row ∈ s.rows ∨ s.pending n .deleted row)

/-- a reconcile of the agent settles what was wrong before -/
def Agrees (s : Net) (n : ℕ) : Prop := s.resetting n ∨ Converging s n

section Frame

variable {s s' : Net} {n t : ℕ} {task : Task}

theorem goto_self : (s.goto t task).tasks t = task := Function.update_self ..

theorem goto_ne {t' : ℕ} (h : t' ≠ t) : (s.goto t task).tasks t' = s.tasks t' := Function.update_of_ne h ..

theorem pending_goto {change : Change} {row : BlockRow} (h : s.pending n change row)
    (hkeep : row.covers n = true → (s.tasks t).pushes n change row → task.pushes n change row) :
    (s.goto t task).pending n change row := by
  obtain ⟨hcov, t', ht'⟩ := h
  by_cases heq : t' = t
  · subst heq
    exact ⟨hcov, t', by rw [goto_self]; exact hkeep hcov ht'⟩
  · exact ⟨hcov, t', by rw [goto_ne heq]; exact ht'⟩

theorem resetting_goto (h : s.resetting n) (hkeep : (s.tasks t).resets n → task.resets n) : (s.goto t task).resetting n := by
  obtain ⟨t', ht'⟩ := h
  by_cases heq : t' = t
  · subst heq
    exact ⟨t', by rw [goto_self]; exact hkeep ht'⟩
  · exact ⟨t', by rw [goto_ne heq]; exact ht'⟩

/-- a step that sends the agent nothing: what it adds and what it drops is on the way -/
theorem Agrees.frame (h : Agrees s n) (hsettled : s'.settled n = s.settled n) (hreset : s.resetting n → s'.resetting n)
    (hpend : ∀ change row, s.pending n change row → s'.pending n change row)
    (hnew : ∀ row ∈ s'.rows, row.covers n = true → row ∈ s.rows ∨ s'.pending n .created row)
    (hgone : ∀ row ∈ s.rows, row.covers n = true → row ∈ s'.rows ∨ s'.pending n .deleted row) : Agrees s' n := by
  rcases h with h | h
  · exact Or.inl (hreset h)
  refine Or.inr ⟨fun row hrow hcov => ?_, fun x hx => ?_⟩
  · rcases hnew row hrow hcov with hrow | hp
    · rw [hsettled]
      exact (h.present row hrow hcov).imp_right (hpend _ _)
    · exact Or.inr hp
  · rw [hsettled] at hx
    obtain ⟨row, hcov, hent, hrow | hp⟩ := h.absent x hx
    · exact ⟨row, hcov, hent, hgone row hrow hcov⟩
    · exact ⟨row, hcov, hent, Or.inr (hpend _ _ hp)⟩

/-- a step between two places of a task that sends nothing and leaves the list -/
theorem Agrees.goto (h : Agrees s n) (hreset : (s.tasks t).resets n → task.resets n)
    (hpend : ∀ change row, row.covers n = true → (s.tasks t).pushes n change row → task.pushes n change row) :
    Agrees (s.goto t task) n :=
  h.frame rfl (fun hr => resetting_goto hr hreset) (fun change row hp => pending_goto hp (hpend change row))
    (fun _ hrow _ => Or.inl hrow) fun _ hrow _ => Or.inl hrow

theorem Agrees.setLock (h : Agrees s n) (lock : Bool) : Agrees { s with lock := lock } n :=
  h.frame rfl (fun hr => hr) (fun _ _ hp => hp) (fun _ hrow _ => Or.inl hrow) fun _ hrow _ => Or.inl hrow

theorem send_tasks {m : ℕ} {msg : ServerMessage} : (s.send m msg).tasks = s.tasks := by
  unfold Net.send
  split <;> rfl

theorem send_rows {m : ℕ} {msg : ServerMessage} : (s.send m msg).rows = s.rows := by
  unfold Net.send
  split <;> rfl

theorem settled_send_ne {m : ℕ} {msg : ServerMessage} (hm : m ≠ n) : (s.send m msg).settled n = s.settled n := by
  unfold Net.send
  split
  · rfl
  · simp [Net.settled, Function.update_of_ne hm.symm]

/-- what the agent is sent comes after all that it was sent before -/
theorem settled_send {conn : Conn} (hconn : s.conns.get n = some conn) {msg : ServerMessage} :
    (s.send n msg).settled n = effect (s.settled n) msg := by
  simp [Net.send, hconn, Net.settled]

theorem Agrees.send_ne (h : Agrees s n) {m : ℕ} {msg : ServerMessage} (hm : m ≠ n) : Agrees (s.send m msg) n := by
  have htasks := @send_tasks s m msg
  refine h.frame (settled_send_ne hm) ?_ ?_ (fun row hrow _ => Or.inl (send_rows ▸ hrow))
    fun row hrow _ => Or.inl (send_rows.symm ▸ hrow)
  · rintro ⟨t', ht'⟩
    exact ⟨t', by rwa [htasks]⟩
  · rintro change row ⟨hcov, t', ht'⟩
    exact ⟨hcov, t', by rwa [htasks]⟩

theorem eligible_get (h : s.eligible n) : ∃ conn, s.conns.get n = some conn ∧ firewallMinProtocol ≤ conn.protocolVersion := by
  obtain ⟨⟨conn, hconn, rfl, hproto⟩, -⟩ := h
  exact ⟨conn, Table.get_key hconn, hproto⟩

end Frame

/-! ## Rows and tasks -/

/-- the row that a task has read or written -/
def Task.row : Task → Option BlockRow
  | .found row => some row
  | .committed _ row => some row
  | .push _ row _ => some row
  | _ => none

/-- the task has deleted the row -/
def Task.deleted (row : BlockRow) : Task → Prop
  | .committed c r => c = .deleted ∧ r = row
  | .push c r _ => c = .deleted ∧ r = row
  | _ => False

/-- the entries that the task read for a server -/
def Task.snapshot : Task → Option (ℕ × List BlockEntry)
  | .loaded m entries _ => some (m, entries)
  | _ => none

/-- ids are never used again, and every copy of a row is the row -/
structure Books (s : Net) (n : ℕ) : Prop where
  unique : ∀ r ∈ s.issued, ∀ r' ∈ s.issued, r.id = r'.id → r = r'
  rows : ∀ r ∈ s.rows, r ∈ s.issued
  tasks : ∀ t r, (s.tasks t).row = some r → r ∈ s.issued
  gone : ∀ t r, (s.tasks t).deleted r → r ∉ s.rows
  snapshots : ∀ t m entries, (s.tasks t).snapshot = some (m, entries) →
    (entries.map BlockEntry.id).Nodup ∧ ∀ e ∈ entries, ∃ r ∈ s.issued, r.covers m = true ∧ r.entry = e
  queue : ∀ msg ∈ s.channels n, (msg.entries.map BlockEntry.id).Nodup
  sound : (s.agents n).Sound

section Books

variable {s : Net} {n t : ℕ} {task : Task}

theorem Books.goto (h : Books s n) (hrow : ∀ r, task.row = some r → r ∈ s.issued) (hgone : ∀ r, task.deleted r → r ∉ s.rows)
    (hsnap : ∀ m entries, task.snapshot = some (m, entries) →
      (entries.map BlockEntry.id).Nodup ∧ ∀ e ∈ entries, ∃ r ∈ s.issued, r.covers m = true ∧ r.entry = e) :
    Books (s.goto t task) n := by
  refine { h with tasks := fun t' r hr => ?_, gone := fun t' r hr => ?_, snapshots := fun t' m entries hs => ?_ }
  all_goals by_cases heq : t' = t
  · subst heq
    rw [goto_self] at hr
    exact hrow r hr
  · rw [goto_ne heq] at hr
    exact h.tasks t' r hr
  · subst heq
    rw [goto_self] at hr
    exact hgone r hr
  · rw [goto_ne heq] at hr
    exact h.gone t' r hr
  · subst heq
    rw [goto_self] at hs
    exact hsnap m entries hs
  · rw [goto_ne heq] at hs
    exact h.snapshots t' m entries hs

/-- a task that holds nothing -/
theorem Books.goto_plain (h : Books s n) (hrow : task.row = none) (hgone : ∀ r, ¬ task.deleted r) (hsnap : task.snapshot = none) :
    Books (s.goto t task) n :=
  h.goto (fun r hr => by rw [hrow] at hr; cases hr) (fun r hr => absurd hr (hgone r))
    fun m entries hs => by rw [hsnap] at hs; cases hs

theorem Books.send (h : Books s n) {m : ℕ} {msg : ServerMessage} (hmsg : (msg.entries.map BlockEntry.id).Nodup) :
    Books (s.send m msg) n := by
  unfold Net.send
  split
  · exact h
  · refine { h with queue := fun msg' hmsg' => ?_ }
    by_cases heq : n = m
    · subst heq
      simp only [Function.update_self, List.mem_append, List.mem_singleton] at hmsg'
      rcases hmsg' with hmsg' | rfl
      · exact h.queue msg' hmsg'
      · exact hmsg
    · simp only [Function.update_of_ne heq] at hmsg'
      exact h.queue msg' hmsg'

theorem mem_listForServer {rows : BlockList} {m : ℕ} {x : BlockEntry} :
    x ∈ listForServer rows m ↔ ∃ row ∈ rows, row.covers m = true ∧ row.entry = x := by
  simp only [listForServer, List.mem_map, List.mem_filter, List.mem_insertionSort, Table.mem_rows, and_assoc]

theorem nodup_listForServer (rows : BlockList) (m : ℕ) : ((listForServer rows m).map BlockEntry.id).Nodup := by
  set sorted := rows.rows.insertionSort fun r r' => r.createdAt ≤ r'.createdAt with hsorted
  have hids : (sorted.map BlockRow.id).Nodup := ((List.perm_insertionSort _ rows.rows).map _).nodup_iff.2 rows.unique
  have hmap : (listForServer rows m).map BlockEntry.id = (sorted.filter fun r => r.covers m).map BlockRow.id := by
    simp only [listForServer, ← hsorted, List.map_map]
    rfl
  rw [hmap]
  exact hids.sublist (List.filter_sublist.map _)

theorem Change.entries_nodup (change : Change) (row : BlockRow) :
    (((change.message row).entries).map BlockEntry.id).Nodup := by
  cases change <;> simp [Change.message, ServerMessage.entries]

theorem Books.entry_inj (h : Books s n) {r r' : BlockRow} (hr : r ∈ s.issued) (hr' : r' ∈ s.issued)
    (hid : r.entry.id = r'.entry.id) : r = r' := h.unique r hr r' hr' hid

theorem Books.pending_issued (h : Books s n) {change : Change} {row : BlockRow} (hp : s.pending n change row) :
    row ∈ s.issued := by
  obtain ⟨-, t, ht⟩ := hp
  refine h.tasks t row ?_
  cases htask : s.tasks t <;> rw [htask] at ht
  case committed => exact congrArg some ht.2
  case push => exact congrArg some ht.2.1
  all_goals exact ht.elim

end Books

/-! ## Sends to the agent -/

/-- **When a step of a task is timely.** An addition is pushed while its block is in the list or still to be withdrawn; a
reconcile's statement succeeds; and a snapshot that is sent misses only changes that are still to be pushed. -/
def Task.timely (n : ℕ) (s : Net) (ok : Bool) : Task → Prop
  | .push .created row (conn :: _) => conn.serverId = n → ¬ s.resetting n → row ∈ s.rows ∨ s.pending n .deleted row
  | .allowed m _ => m = n → ok = true
  | .loaded m entries _ => m = n → ∀ row ∈ s.issued, row.covers n = true →
      (row ∈ s.rows → row.entry ∉ entries → s.pending n .created row) ∧
        (row.entry ∈ entries → row ∉ s.rows → s.pending n .deleted row)
  | _ => True

def Timely (n : ℕ) (s : Net) : Op → Prop
  | .advance t ok _ => (s.tasks t).timely n s ok
  | _ => True

section Sends

variable {s : Net} {n t : ℕ}

theorem send_goto {m : ℕ} {msg : ServerMessage} {task : Task} : (s.send m msg).goto t task = (s.goto t task).send m msg := by
  unfold Net.send Net.goto
  dsimp only
  cases s.conns.get m <;> rfl

/-- a reset settles the agent, whatever it held before -/
theorem sendReset_agrees (h : Agrees s n) {m : ℕ} {rest : List ℕ} (htask : s.tasks t = .fanOut (m :: rest)) :
    Agrees (s.sendReset t m rest) n := by
  have hskip : ∀ task, Agrees (s.goto t task) n := fun task =>
    h.goto (fun hr => by rw [htask] at hr; exact hr.elim) fun c r _ hp => by rw [htask] at hp; exact hp.elim
  unfold Net.sendReset
  split_ifs with hproto
  · exact hskip _
  · by_cases hm : m = n
    · exact Or.inl ⟨t, by rw [goto_self]; exact hm⟩
    · rw [send_goto]
      exact (hskip _).send_ne hm

variable (hb : Books s n) (he : s.eligible n)
include hb he

/-- the agent is sent the change of a row -/
theorem Agrees.push (h : Agrees s n) {change : Change} {row : BlockRow} {conn : Conn} {rest : List Conn}
    (htask : s.tasks t = .push change row (conn :: rest)) (hcovers : row.covers n = true)
    (htimely : change = .created → ¬ s.resetting n → row ∈ s.rows ∨ s.pending n .deleted row) :
    Agrees ((s.send n (change.message row)).goto t (.push change row rest)) n := by
  rw [send_goto]
  set s' := (s.goto t (.push change row rest)).send n (change.message row) with hs'
  have htasks : s'.tasks = (s.goto t (.push change row rest)).tasks := send_tasks
  have hrows : s'.rows = s.rows := send_rows
  obtain ⟨conn', hget, -⟩ := eligible_get he
  have hsettled : s'.settled n = effect (s.settled n) (change.message row) :=
    settled_send (s := s.goto t (.push change row rest)) hget
  have hissued : row ∈ s.issued := hb.tasks t row (by rw [htask]; rfl)
  -- only the change itself is no longer on its way
  have hkeep : ∀ c r, s.pending n c r → (c = change ∧ r = row) ∨ s'.pending n c r := by
    intro c r hp
    by_cases hsame : c = change ∧ r = row
    · exact Or.inl hsame
    · have hp' : (s.goto t (.push change row rest)).pending n c r := pending_goto hp fun _ hpush => by
        rw [htask] at hpush
        exact absurd ⟨hpush.1.symm, hpush.2.1.symm⟩ hsame
      obtain ⟨hcov, t', ht'⟩ := hp'
      exact Or.inr ⟨hcov, t', by rwa [htasks]⟩
  by_cases hr : s.resetting n
  · obtain ⟨t', ht'⟩ : (s.goto t (.push change row rest)).resetting n :=
      resetting_goto hr fun hr => by rw [htask] at hr; exact hr
    exact Or.inl ⟨t', by rwa [htasks]⟩
  have hc := h.resolve_left hr
  refine Or.inr ?_
  cases change with
  | created =>
    have hsettled : s'.settled n = {x | (x ∈ s.settled n ∧ x.id ≠ row.entry.id) ∨ x = row.entry} := hsettled
    refine ⟨fun r hr hcov => ?_, fun x hx => ?_⟩
    · rw [hrows] at hr
      rw [hsettled]
      by_cases heq : r = row
      · exact Or.inl (Or.inr (congrArg BlockRow.entry heq))
      · rcases hc.present r hr hcov with hmem | hp
        · exact Or.inl (Or.inl ⟨hmem, fun hid => heq (hb.entry_inj (hb.rows r hr) hissued hid)⟩)
        · exact Or.inr ((hkeep _ _ hp).resolve_left fun hsame => heq hsame.2)
    · rw [hsettled] at hx
      have hdel : ∀ r, s.pending n .deleted r → s'.pending n .deleted r := fun r hp =>
        (hkeep _ _ hp).resolve_left fun hsame => (by cases hsame.1)
      rcases hx with ⟨hx, -⟩ | rfl
      · obtain ⟨r, hcov, hent, hr | hp⟩ := hc.absent x hx
        · exact ⟨r, hcov, hent, Or.inl (hrows ▸ hr)⟩
        · exact ⟨r, hcov, hent, Or.inr (hdel r hp)⟩
      · rcases htimely rfl hr with hrow | hp
        · exact ⟨row, hcovers, rfl, Or.inl (hrows ▸ hrow)⟩
        · exact ⟨row, hcovers, rfl, Or.inr (hdel row hp)⟩
  | deleted =>
    have hsettled : s'.settled n = {x | x ∈ s.settled n ∧ x.id ≠ row.id} := hsettled
    have hgone : row ∉ s.rows := hb.gone t row (by rw [htask]; exact ⟨rfl, rfl⟩)
    refine ⟨fun r hr hcov => ?_, fun x hx => ?_⟩
    · rw [hrows] at hr
      have hne : r ≠ row := fun heq => hgone (heq ▸ hr)
      rw [hsettled]
      rcases hc.present r hr hcov with hmem | hp
      · exact Or.inl ⟨hmem, fun hid => hne (hb.unique r (hb.rows r hr) row hissued hid)⟩
      · exact Or.inr ((hkeep _ _ hp).resolve_left fun hsame => hne hsame.2)
    · rw [hsettled] at hx
      obtain ⟨hx, hid⟩ := hx
      obtain ⟨r, hcov, hent, hr | hp⟩ := hc.absent x hx
      · exact ⟨r, hcov, hent, Or.inl (hrows ▸ hr)⟩
      · refine ⟨r, hcov, hent, Or.inr ((hkeep _ _ hp).resolve_left fun hsame => hid ?_)⟩
        rw [← hent, hsame.2]
        rfl

theorem pushTo_agrees (h : Agrees s n) {change : Change} {row : BlockRow} {conn : Conn} {rest : List Conn}
    (htask : s.tasks t = .push change row (conn :: rest))
    (htimely : change = .created → conn.serverId = n → ¬ s.resetting n → row ∈ s.rows ∨ s.pending n .deleted row) :
    Agrees ((s.pushTo change row conn).goto t (.push change row rest)) n := by
  have hskip : ¬ (conn.serverId = n ∧ s.receives row conn = true) → Agrees (s.goto t (.push change row rest)) n := by
    -- the agent is not the one to be told, or not one to tell
    intro hno
    refine h.goto (fun hr => (by rw [htask] at hr; exact hr)) fun c r hcov hp => ?_
    rw [htask] at hp
    obtain ⟨rfl, rfl, conn', hconn', hid, hproto⟩ := hp
    rcases List.mem_cons.1 hconn' with rfl | hconn'
    · obtain ⟨caps, hcaps, hhas⟩ := he.2
      exact absurd ⟨hid, by simp [Net.receives, hid, hcov, hcaps, hhas, hproto]⟩ hno
    · exact ⟨rfl, rfl, conn', hconn', hid, hproto⟩
  by_cases hto : conn.serverId = n ∧ s.receives row conn = true
  · obtain ⟨hid, hrec⟩ := hto
    have hpush : s.pushTo change row conn = s.send n (change.message row) := by rw [Net.pushTo, if_pos hrec, hid]
    rw [hpush]
    simp only [Net.receives, Bool.and_eq_true, hid] at hrec
    exact h.push hb he htask hrec.1.1 fun hc => htimely hc hid
  · by_cases hrec : s.receives row conn = true
    · have hne : conn.serverId ≠ n := fun hid => hto ⟨hid, hrec⟩
      rw [Net.pushTo, if_pos hrec]
      rw [send_goto]
      exact (hskip hto).send_ne hne
    · rw [Net.pushTo, if_neg hrec]
      exact hskip hto

/-- a sync of a snapshot that misses only what is still to be pushed -/
theorem sendSync_agrees (h : Agrees s n) {m : ℕ} {entries : List BlockEntry} {rest : List ℕ}
    (htask : s.tasks t = .loaded m entries rest)
    (htimely : m = n → ∀ row ∈ s.issued, row.covers n = true →
      (row ∈ s.rows → row.entry ∉ entries → s.pending n .created row) ∧
        (row.entry ∈ entries → row ∉ s.rows → s.pending n .deleted row)) :
    Agrees ((s.send m (.blocklistSync entries)).goto t (.fanOut rest)) n := by
  rw [send_goto]
  have hpend : ∀ change row, s.pending n change row → (s.goto t (.fanOut rest)).pending n change row :=
    fun change row hp => pending_goto hp fun _ hpush => by rw [htask] at hpush; exact hpush.elim
  by_cases hm : m = n
  · subst hm
    set s' := (s.goto t (.fanOut rest)).send m (.blocklistSync entries) with hs'
    have htasks : s'.tasks = (s.goto t (.fanOut rest)).tasks := send_tasks
    have hrows : s'.rows = s.rows := send_rows
    obtain ⟨conn', hget, -⟩ := eligible_get he
    have hsettled : s'.settled m = {x | x ∈ entries} := settled_send (s := s.goto t (.fanOut rest)) hget
    have hpend' : ∀ change row, s.pending m change row → s'.pending m change row := by
      intro change row hp
      obtain ⟨hcov, t', ht'⟩ := hpend change row hp
      exact ⟨hcov, t', by rwa [htasks]⟩
    refine Or.inr ⟨fun row hrow hcov => ?_, fun x hx => ?_⟩
    · rw [hrows] at hrow
      rw [hsettled]
      by_cases hmem : row.entry ∈ entries
      · exact Or.inl hmem
      · exact Or.inr (hpend' _ _ ((htimely rfl row (hb.rows row hrow) hcov).1 hrow hmem))
    · rw [hsettled] at hx
      have hsnap := hb.snapshots t m entries (by rw [htask]; rfl)
      obtain ⟨row, hrow, hcov, rfl⟩ := hsnap.2 x hx
      by_cases hmem : row ∈ s.rows
      · exact ⟨row, hcov, rfl, Or.inl (hrows ▸ hmem)⟩
      · exact ⟨row, hcov, rfl, Or.inr (hpend' _ _ ((htimely rfl row hrow hcov).2 hx hmem))⟩
  · refine Agrees.send_ne ?_ hm
    refine h.goto (fun hr => ?_) fun c r _ hp => by rw [htask] at hp; exact hp.elim
    rw [htask] at hr
    exact absurd hr hm

end Sends

/-! ## Steps -/

section Steps

variable {s : Net} {n : ℕ}

theorem Books.insertBlock (h : Books s n) {t : ℕ} {row : BlockRow} (hfresh : ∀ r ∈ s.issued, r.id ≠ row.id) :
    Books (s.insertBlock t row) n := by
  have hidle : Books (s.goto t .idle) n := h.goto_plain rfl (fun _ hd => hd) rfl
  unfold Net.insertBlock
  split_ifs
  · exact hidle
  cases hins : s.rows.insert row with
  | none => exact hidle
  | some rows =>
    have hissued : ∀ r, r ∈ rows → r ∈ row :: s.issued := fun r hr =>
      ((Table.mem_insert hins).1 hr).elim (fun hr => List.mem_cons_of_mem _ (h.rows r hr)) fun hr => hr ▸ List.mem_cons_self
    refine Books.goto (s := { s with rows := rows, issued := row :: s.issued })
      ⟨fun r hr r' hr' hid => ?_, hissued, fun t' r hr => List.mem_cons_of_mem _ (h.tasks t' r hr), fun t' r hd hr => ?_,
        fun t' m entries hs => ?_, h.queue, h.sound⟩
      (fun r hr => ?_) (fun r hd => (by cases hd.1)) (fun m entries hs => (by cases hs))
    · rcases List.mem_cons.1 hr with heq | hr <;> rcases List.mem_cons.1 hr' with heq' | hr'
      · exact heq.trans heq'.symm
      · exact absurd (hid.symm.trans (congrArg BlockRow.id heq)) (hfresh r' hr')
      · exact absurd (hid.trans (congrArg BlockRow.id heq')) (hfresh r hr)
      · exact h.unique r hr r' hr' hid
    · rcases (Table.mem_insert hins).1 hr with hr | rfl
      · exact h.gone t' r hd hr
      · refine hfresh r (h.tasks t' r ?_) rfl
        cases htask : s.tasks t' <;> rw [htask] at hd
        case committed => exact congrArg some hd.2
        case push => exact congrArg some hd.2
        all_goals exact hd.elim
    · obtain ⟨hnodup, hall⟩ := h.snapshots t' m entries hs
      exact ⟨hnodup, fun e he => (hall e he).imp fun r hr => ⟨List.mem_cons_of_mem _ hr.1, hr.2⟩⟩
    · obtain rfl : row = r := Option.some.inj hr
      exact List.mem_cons_self

theorem Books.advance (h : Books s n) (t : ℕ) (ok : Bool) (id : ℕ) : Books (s.advance t ok id) n := by
  have hplain : ∀ {u : Net} {task : Task}, Books u n → task.row = none → (∀ r, ¬ task.deleted r) → task.snapshot = none →
      Books (u.goto t task) n := fun hb hrow hgone hsnap => hb.goto_plain hrow hgone hsnap
  have hidle : Books (s.goto t .idle) n := hplain h rfl (fun _ hd => hd) rfl
  unfold Net.advance
  cases htask : s.tasks t with
  | idle => exact h
  | lookup req m =>
    dsimp only
    split_ifs
    · exact hplain h rfl (fun _ hd => hd) rfl
    · exact hidle
  | insert req =>
    dsimp only
    split_ifs with hany hok
    · exact h
    · refine h.insertBlock fun r hr hid => hany (List.any_eq_true.2 ⟨r, hr, ?_⟩)
      exact beq_iff_eq.2 hid
    · exact hidle
  | find id =>
    dsimp only
    cases hget : s.rows.get id with
    | none => exact hidle
    | some row =>
      dsimp only
      split_ifs
      · refine h.goto (fun r hr => ?_) (fun _ hd => hd.elim) fun m entries hs => (by cases hs)
        obtain rfl : row = r := Option.some.inj hr
        exact h.rows _ (Table.get_eq_some.1 hget).1
      · exact hidle
  | found row =>
    dsimp only
    have hrow : row ∈ s.issued := h.tasks t row (by rw [htask]; rfl)
    split_ifs
    · refine Books.goto (s := { s with rows := s.rows.delete fun r => r.id == row.id })
        ⟨h.unique, fun r hr => h.rows r (Table.mem_delete.1 hr).1, h.tasks, fun t' r hd hr => ?_, h.snapshots, h.queue, h.sound⟩
        (fun r hr => ?_) (fun r hd hr => ?_) fun m entries hs => (by cases hs)
      · exact h.gone t' r hd (Table.mem_delete.1 hr).1
      · obtain rfl : row = r := Option.some.inj hr
        exact hrow
      · obtain rfl : r = row := hd.2.symm
        simpa using (Table.mem_delete.1 hr).2
    · exact hidle
  | committed change row =>
    refine h.goto (fun r hr => h.tasks t r (by rw [htask]; exact hr)) (fun r hd => h.gone t r (by rw [htask]; exact hd)) ?_
    exact fun m entries hs => (by cases hs)
  | push change row rest =>
    cases rest with
    | nil => exact hidle
    | cons conn rest =>
      have hkept : Books (s.goto t (.push change row rest)) n :=
        h.goto (fun r hr => h.tasks t r (by rw [htask]; exact hr)) (fun r hd => h.gone t r (by rw [htask]; exact hd))
          fun m entries hs => (by cases hs)
      show Books ((s.pushTo change row conn).goto t (.push change row rest)) n
      unfold Net.pushTo
      split_ifs
      · rw [send_goto]
        exact hkept.send (change.entries_nodup row)
      · exact hkept
  | reconcile m =>
    dsimp only
    split_ifs
    · exact h
    · exact hplain (u := { s with lock := true }) { h with } rfl (fun _ hd => hd) rfl
  | fanOut rest =>
    cases rest with
    | nil => exact hplain (u := { s with lock := false }) { h with } rfl (fun _ hd => hd) rfl
    | cons m rest =>
      show Books (s.sendReset t m rest) n
      unfold Net.sendReset
      split_ifs
      · exact hplain h rfl (fun _ hd => hd) rfl
      · exact hplain (h.send List.nodup_nil) rfl (fun _ hd => hd) rfl
  | resetSent m rest =>
    show Books (s.checkCapability t m rest ok) n
    unfold Net.checkCapability
    split_ifs <;> exact hplain h rfl (fun _ hd => hd) rfl
  | allowed m rest =>
    dsimp only
    split_ifs
    · refine h.goto (fun r hr => (by cases hr)) (fun _ hd => hd.elim) fun m' entries hs => ?_
      obtain ⟨rfl, rfl⟩ : m = m' ∧ listForServer s.rows m = entries := by
        cases hs
        exact ⟨rfl, rfl⟩
      refine ⟨nodup_listForServer s.rows m, fun e he => ?_⟩
      obtain ⟨row, hrow, hcov, hent⟩ := mem_listForServer.1 he
      exact ⟨row, h.rows row hrow, hcov, hent⟩
    · exact hplain h rfl (fun _ hd => hd) rfl
  | loaded m entries rest =>
    refine hplain (h.send ?_) rfl (fun _ hd => hd) rfl
    exact (h.snapshots t m entries (by rw [htask]; rfl)).1

theorem send_conns {m : ℕ} {msg : ServerMessage} : (s.send m msg).conns = s.conns ∧ (s.send m msg).caps = s.caps := by
  unfold Net.send
  split <;> exact ⟨rfl, rfl⟩

/-- a task leaves the connections, the capabilities and the other tasks -/
theorem advance_frame (t : ℕ) (ok : Bool) (id : ℕ) :
    (s.advance t ok id).conns = s.conns ∧ (s.advance t ok id).caps = s.caps ∧
      ∀ t' ≠ t, (s.advance t ok id).tasks t' = s.tasks t' := by
  have hgoto : ∀ {u : Net} (task : Task), u.conns = s.conns → u.caps = s.caps → u.tasks = s.tasks →
      (u.goto t task).conns = s.conns ∧ (u.goto t task).caps = s.caps ∧ ∀ t' ≠ t, (u.goto t task).tasks t' = s.tasks t' :=
    fun task hconns hcaps htasks => ⟨hconns, hcaps, fun t' ht' => (goto_ne ht').trans (congrFun htasks t')⟩
  have hmove := fun task => hgoto (u := s) task rfl rfl rfl
  have hsend := fun m msg task => hgoto (u := s.send m msg) task send_conns.1 send_conns.2 send_tasks
  unfold Net.advance
  cases s.tasks t with
  | idle => exact ⟨rfl, rfl, fun _ _ => rfl⟩
  | lookup req m => dsimp only; split_ifs <;> exact hmove _
  | insert req =>
    dsimp only [Net.insertBlock]
    split_ifs
    · exact ⟨rfl, rfl, fun _ _ => rfl⟩
    · exact hmove _
    · cases s.rows.insert (req.row id) with
      | none => exact hmove _
      | some rows => exact hgoto (u := { s with rows := rows, issued := req.row id :: s.issued }) _ rfl rfl rfl
    · exact hmove _
  | find id =>
    dsimp only
    cases s.rows.get id with
    | none => exact hmove _
    | some row => dsimp only; split_ifs <;> exact hmove _
  | found row =>
    dsimp only
    split_ifs
    · exact hgoto (u := { s with rows := s.rows.delete fun r => r.id == row.id }) _ rfl rfl rfl
    · exact hmove _
  | committed change row => exact hmove _
  | push change row rest =>
    cases rest with
    | nil => exact hmove _
    | cons conn rest =>
      dsimp only [Net.pushTo]
      split_ifs
      · exact hsend _ _ _
      · exact hmove _
  | reconcile m =>
    dsimp only
    split_ifs
    · exact ⟨rfl, rfl, fun _ _ => rfl⟩
    · exact hgoto (u := { s with lock := true }) _ rfl rfl rfl
  | fanOut rest =>
    cases rest with
    | nil => exact hgoto (u := { s with lock := false }) _ rfl rfl rfl
    | cons m rest =>
      dsimp only [Net.sendReset]
      split_ifs
      · exact hmove _
      · exact hsend _ _ _
  | resetSent m rest => dsimp only [Net.checkCapability]; split_ifs <;> exact hmove _
  | allowed m rest => dsimp only; split_ifs <;> exact hmove _
  | loaded m entries rest => exact hsend _ _ _

/-- a new block is on its way -/
theorem insertBlock_agrees (h : Agrees s n) {t : ℕ} {req : BlockReq} (htask : s.tasks t = .insert req) (row : BlockRow) :
    Agrees (s.insertBlock t row) n := by
  have hidle : Agrees (s.goto t .idle) n :=
    h.goto (fun hr => by rw [htask] at hr; exact hr.elim) fun c r _ hp => by rw [htask] at hp; exact hp.elim
  unfold Net.insertBlock
  split_ifs
  · exact hidle
  cases hins : s.rows.insert row with
  | none => exact hidle
  | some rows =>
    refine h.frame rfl ?_ (fun c r hp => ?_) (fun r hr hcov => ?_) fun r hr _ => Or.inl ((Table.mem_insert hins).2 (Or.inl hr))
    · exact fun hr => resetting_goto (s := s) hr fun hr => by rw [htask] at hr; exact hr.elim
    · exact pending_goto (s := s) hp fun _ hp => by rw [htask] at hp; exact hp.elim
    · rcases (Table.mem_insert hins).1 hr with hr | rfl
      · exact Or.inl hr
      · exact Or.inr ⟨hcov, t, by rw [goto_self]; exact ⟨rfl, rfl⟩⟩

/-- a deleted block is to be withdrawn -/
theorem deleteBlock_agrees (h : Agrees s n) (hb : Books s n) {t : ℕ} {row : BlockRow} (htask : s.tasks t = .found row) :
    Agrees ({ s with rows := s.rows.delete fun r => r.id == row.id }.goto t (.committed .deleted row)) n := by
  refine h.frame rfl ?_ (fun c r hp => ?_) (fun r hr _ => Or.inl (Table.mem_delete.1 hr).1) fun r hr hcov => ?_
  · exact fun hr => resetting_goto (s := s) hr fun hr => by rw [htask] at hr; exact hr.elim
  · exact pending_goto (s := s) hp fun _ hp => by rw [htask] at hp; exact hp.elim
  · by_cases hid : r.id = row.id
    · have hrow : row ∈ s.issued := hb.tasks t row (by rw [htask]; rfl)
      obtain rfl := hb.unique r (hb.rows r hr) row hrow hid
      exact Or.inr ⟨hcov, t, by rw [goto_self]; exact ⟨rfl, rfl⟩⟩
    · exact Or.inl (Table.mem_delete.2 ⟨hr, beq_eq_false_iff_ne.2 hid⟩)

theorem advance_agrees (hb : Books s n) (he : s.eligible n) (h : Agrees s n) {t : ℕ} {ok : Bool} {id : ℕ}
    (htimely : Timely n s (.advance t ok id)) : Agrees (s.advance t ok id) n := by
  -- most tasks neither push nor reset
  have hmove : ∀ task, (∀ c r, ¬ (s.tasks t).pushes n c r) → ((s.tasks t).resets n → task.resets n) →
      Agrees (s.goto t task) n := fun task hp hr => h.goto hr fun c r _ hpush => absurd hpush (hp c r)
  unfold Net.advance
  cases htask : s.tasks t with
  | idle => exact h
  | lookup req m =>
    rw [htask] at hmove
    dsimp only
    split_ifs <;> exact hmove _ (fun _ _ hp => hp) fun hr => hr.elim
  | insert req =>
    rw [htask] at hmove
    dsimp only
    split_ifs
    · exact h
    · exact insertBlock_agrees h htask _
    · exact hmove _ (fun _ _ hp => hp) fun hr => hr.elim
  | find id =>
    rw [htask] at hmove
    dsimp only
    cases s.rows.get id with
    | none => exact hmove _ (fun _ _ hp => hp) fun hr => hr.elim
    | some row => dsimp only; split_ifs <;> exact hmove _ (fun _ _ hp => hp) fun hr => hr.elim
  | found row =>
    rw [htask] at hmove
    dsimp only
    split_ifs
    · exact deleteBlock_agrees h hb htask
    · exact hmove _ (fun _ _ hp => hp) fun hr => hr.elim
  | committed change row =>
    refine h.goto (fun hr => by rw [htask] at hr; exact hr) fun c r _ hp => ?_
    rw [htask] at hp
    obtain ⟨conn, hconn, hid, hproto⟩ := he.1
    exact ⟨hp.1, hp.2, conn, hconn, hid, hproto⟩
  | push change row rest =>
    cases rest with
    | nil =>
      refine h.goto (fun hr => by rw [htask] at hr; exact hr) fun c r _ hp => ?_
      rw [htask] at hp
      obtain ⟨-, -, conn, hconn, -⟩ := hp
      cases hconn
    | cons conn rest =>
      refine pushTo_agrees hb he h htask fun hc hid => ?_
      subst hc
      have htimely : (s.tasks t).timely n s ok := htimely
      rw [htask] at htimely
      exact htimely hid
  | reconcile m =>
    dsimp only
    split_ifs
    · exact h
    · refine (h.setLock true).goto (fun hr => ?_) fun c r _ hp => ?_
      · exact (htask ▸ hr : (Task.reconcile m).resets n).elim
      · exact (htask ▸ hp : (Task.reconcile m).pushes n c r).elim
  | fanOut rest =>
    cases rest with
    | nil =>
      refine (h.setLock false).goto (fun hr => ?_) fun c r _ hp => ?_
      · exact (htask ▸ hr : (Task.fanOut []).resets n).elim
      · exact (htask ▸ hp : (Task.fanOut []).pushes n c r).elim
    | cons m rest => exact sendReset_agrees h htask
  | resetSent m rest =>
    rw [htask] at hmove
    show Agrees (s.checkCapability t m rest ok) n
    unfold Net.checkCapability
    by_cases hm : m = n
    · obtain ⟨caps, hcaps, hhas⟩ := he.2
      have hcap : (s.capabilitiesForAgent m ok).any (fun caps => hasCapability caps capFirewallBlock) = true := by
        simp [Net.capabilitiesForAgent, hm, hcaps, hhas]
      rw [if_pos hcap]
      exact hmove _ (fun _ _ hp => hp) fun hr => hr
    · split_ifs <;> exact hmove _ (fun _ _ hp => hp) fun hr => absurd hr hm
  | allowed m rest =>
    have htimely : (s.tasks t).timely n s ok := htimely
    rw [htask] at htimely hmove
    dsimp only
    split_ifs with hok
    · exact hmove _ (fun _ _ hp => hp) fun hr => hr
    · exact hmove _ (fun _ _ hp => hp) fun hr => absurd (htimely hr) hok
  | loaded m entries rest =>
    have htimely : (s.tasks t).timely n s ok := htimely
    rw [htask] at htimely
    exact sendSync_agrees hb he h htask htimely

end Steps

/-! ## Runs -/

section Runs

variable (T : IpText)

/-- the agent stays connected and capable, and handles its messages without failures of nft or hits of the guardrail -/
def Undisturbed (n : ℕ) (s : Net) : Op → Prop
  | .deliver m faults _ _ => m = n → faults = noFaults ∧
      ∀ msg ∈ (s.channels n).head?, ∀ e ∈ msg.entries, check T e.target (s.agents n).externalIp = none
  | .connect m _ => m ≠ n
  | .disconnect m => m ≠ n
  | .capabilities m caps _ => m = n → ∃ c, caps = some c ∧ hasCapability c capFirewallBlock = true
  | _ => True

variable {T} {s : Net} {n : ℕ}

/-- a step that leaves tasks, rows and channel of the agent -/
theorem Agrees.other {s' : Net} (h : Agrees s n) (htasks : s'.tasks = s.tasks) (hrows : s'.rows = s.rows)
    (hsettled : s'.settled n = s.settled n) : Agrees s' n := by
  refine h.frame hsettled ?_ ?_ (fun row hrow _ => Or.inl (hrows ▸ hrow)) fun row hrow _ => Or.inl (hrows.symm ▸ hrow)
  · rintro ⟨t, ht⟩
    exact ⟨t, by rwa [htasks]⟩
  · rintro change row ⟨hcov, t, ht⟩
    exact ⟨hcov, t, by rwa [htasks]⟩

/-- what holds in every state, timely or not -/
structure Steady (s : Net) (n : ℕ) : Prop where
  books : Books s n
  eligible : s.eligible n

theorem deliver_steady (h : Steady s n) {m : ℕ} {faults : Faults} {incomingOrder orphanOrder : Order}
    (hu : Undisturbed T n s (.deliver m faults incomingOrder orphanOrder)) :
    Steady (step T s (.deliver m faults incomingOrder orphanOrder)) n ∧
      (step T s (.deliver m faults incomingOrder orphanOrder)).settled n = s.settled n := by
  obtain ⟨hb, he⟩ := h
  cases hch : s.channels m with
  | nil =>
    have hstep : step T s (.deliver m faults incomingOrder orphanOrder) = s := by simp only [step, hch]
    rw [hstep]
    exact ⟨⟨hb, he⟩, rfl⟩
  | cons msg rest =>
    have hstep : step T s (.deliver m faults incomingOrder orphanOrder) =
        { s with
          channels := Function.update s.channels m rest
          agents := Function.update s.agents m (handle T faults incomingOrder orphanOrder (s.agents m) msg).2 } := by
      simp only [step, hch]
    rw [hstep]
    by_cases hm : m = n
    · subst hm
      obtain ⟨rfl, haccept⟩ := hu rfl
      have haccept := haccept msg (by rw [hch]; rfl)
      obtain ⟨hsound, heffect⟩ := handle_effect T hb.sound (hb.queue msg (by simp [hch])) haccept incomingOrder orphanOrder
      refine ⟨⟨{ hb with queue := fun msg' hmsg' => ?_, sound := by simpa using hsound }, he⟩, ?_⟩
      · simp only [Function.update_self] at hmsg'
        exact hb.queue msg' (by rw [hch]; exact List.mem_cons_of_mem _ hmsg')
      · simp [Net.settled, hch, heffect]
    · refine ⟨⟨{ hb with queue := fun msg' hmsg' => ?_, sound := ?_ }, he⟩, ?_⟩
      · simp only [Function.update_of_ne (Ne.symm hm)] at hmsg'
        exact hb.queue msg' hmsg'
      · simpa [Function.update_of_ne (Ne.symm hm)] using hb.sound
      · simp [Net.settled, Function.update_of_ne (Ne.symm hm)]

theorem connect_steady (h : Steady s n) {m : ℕ} (hm : m ≠ n) {conns : Table Conn.serverId}
    (hconns : ∀ conn ∈ s.conns, conn.serverId ≠ m → conn ∈ conns) :
    Steady { s with conns := conns, channels := Function.update s.channels m [] } n := by
  refine ⟨{ h.books with queue := fun msg hmsg => ?_ }, ?_, h.eligible.2⟩
  · simp only [Function.update_of_ne hm.symm] at hmsg
    exact h.books.queue msg hmsg
  · obtain ⟨conn, hconn, hid, hproto⟩ := h.eligible.1
    exact ⟨conn, hconns conn hconn fun heq => hm (heq.symm.trans hid), hid, hproto⟩

theorem mem_setConn {conns : Table Conn.serverId} {conn conn' : Conn} (h : conn' ∈ conns)
    (hne : conn'.serverId ≠ conn.serverId) : conn' ∈ setConn conns conn := by
  unfold setConn
  cases hins : conns.insert conn with
  | some conns' => exact (Table.mem_insert hins).2 (Or.inl h)
  | none =>
    simp only [Option.getD_none, Table.set, Table.mem_update, decide_eq_true_eq]
    exact ⟨conn', h, if_neg hne⟩

theorem start_task (call : Call) : call.task.row = none ∧ (∀ r, ¬ call.task.deleted r) ∧ call.task.snapshot = none := by
  cases call <;> exact ⟨rfl, fun _ hd => hd, rfl⟩

theorem step_steady (h : Steady s n) {op : Op} (hu : Undisturbed T n s op) : Steady (step T s op) n := by
  cases op with
  | start t call =>
    show Steady (if s.tasks t = .idle then s.goto t call.task else s) n
    split_ifs
    · obtain ⟨hrow, hgone, hsnap⟩ := start_task call
      exact ⟨h.books.goto_plain hrow hgone hsnap, h.eligible⟩
    · exact h
  | advance t ok id =>
    obtain ⟨hconns, hcaps, -⟩ := advance_frame (s := s) t ok id
    refine ⟨h.books.advance t ok id, ?_⟩
    show (s.advance t ok id).eligible n
    unfold Net.eligible
    rw [hconns, hcaps]
    exact h.eligible
  | deliver m faults incomingOrder orphanOrder => exact (deliver_steady h hu).1
  | connect m protocol => exact connect_steady h hu fun conn hconn hne => mem_setConn hconn hne
  | disconnect m =>
    exact connect_steady h hu fun conn hconn hne => Table.mem_delete.2 ⟨hconn, beq_eq_false_iff_ne.2 hne⟩
  | capabilities m caps mirror =>
    refine ⟨{ h.books with }, h.eligible.1, ?_⟩
    by_cases hm : m = n
    · subst hm
      obtain ⟨c, rfl, hc⟩ := hu rfl
      exact ⟨c, Function.update_self .., hc⟩
    · obtain ⟨c, hc, hhas⟩ := h.eligible.2
      exact ⟨c, (Function.update_of_ne (Ne.symm hm) ..).trans hc, hhas⟩
  | externalIp m ip =>
    refine ⟨{ h.books with sound := ?_ }, h.eligible⟩
    by_cases hm : n = m
    · subst hm
      have hsound : (setExternalIp (s.agents n) ip).Sound := h.books.sound
      simpa [step] using hsound
    · simpa [step, Function.update_of_ne hm] using h.books.sound

theorem step_agrees (h : Steady s n) (ha : Agrees s n) {op : Op} (hu : Undisturbed T n s op) (ht : Timely n s op) :
    Agrees (step T s op) n := by
  cases op with
  | start t call =>
    show Agrees (if s.tasks t = .idle then s.goto t call.task else s) n
    split_ifs with hidle
    · refine ha.goto (fun hr => ?_) fun c r _ hp => ?_
      · rw [hidle] at hr
        exact hr.elim
      · rw [hidle] at hp
        exact hp.elim
    · exact ha
  | advance t ok id => exact advance_agrees h.books h.eligible ha ht
  | deliver m faults incomingOrder orphanOrder =>
    refine ha.other ?_ ?_ (deliver_steady h hu).2 <;> simp only [step] <;> split <;> rfl
  | connect m protocol => exact ha.other rfl rfl (by simp [step, Net.settled, Function.update_of_ne (Ne.symm hu)])
  | disconnect m => exact ha.other rfl rfl (by simp [step, Net.settled, Function.update_of_ne (Ne.symm hu)])
  | capabilities m caps mirror => exact ha.other rfl rfl rfl
  | externalIp m ip =>
    refine ha.other rfl rfl ?_
    by_cases hm : n = m
    · subst hm
      simp [step, Net.settled, setExternalIp, Agent.held]
    · simp [step, Net.settled, Function.update_of_ne hm]

/-- no call is running, nothing is on its way to the agent, and the agent is one to push blocks to -/
structure Start (s : Net) (n : ℕ) : Prop where
  tasks : ∀ t, s.tasks t = .idle
  channel : s.channels n = []
  issued : s.issued = s.rows.rows
  sound : (s.agents n).Sound
  eligible : s.eligible n

theorem Start.steady (h : Start s n) : Steady s n where
  books := {
    unique := fun r hr r' hr' hid => by
      rw [h.issued] at hr hr'
      exact Table.mem_inj hr hr' hid
    rows := fun r hr => by rw [h.issued]; exact hr
    tasks := fun t r hr => by rw [h.tasks t] at hr; cases hr
    gone := fun t r hd => by rw [h.tasks t] at hd; exact hd.elim
    snapshots := fun t m entries hs => by rw [h.tasks t] at hs; cases hs
    queue := fun msg hmsg => by rw [h.channel] at hmsg; cases hmsg
    sound := h.sound }
  eligible := h.eligible

/-- all calls have returned, and the agent has handled its messages -/
def AtRest (s : Net) (n : ℕ) : Prop := (∀ t, s.tasks t = .idle) ∧ s.channels n = []

theorem Agrees.atRest (h : Agrees s n) (hrest : AtRest s n) : (s.agents n).held = s.covering n := by
  obtain ⟨hidle, hch⟩ := hrest
  have hreset : ¬ s.resetting n := by
    rintro ⟨t, ht⟩
    rw [hidle t] at ht
    exact ht
  have hpend : ∀ c r, ¬ s.pending n c r := by
    rintro c r ⟨-, t, ht⟩
    rw [hidle t] at ht
    exact ht
  have hsettled : s.settled n = (s.agents n).held := by rw [Net.settled, hch, List.foldl_nil]
  have hc := h.resolve_left hreset
  rw [← hsettled]
  refine Set.ext fun x => ⟨fun hx => ?_, ?_⟩
  · obtain ⟨row, hcov, hent, hrow | hp⟩ := hc.absent x hx
    · exact ⟨row, hrow, hcov, hent⟩
    · exact absurd hp (hpend _ _)
  · rintro ⟨row, hrow, hcov, rfl⟩
    exact (hc.present row hrow hcov).resolve_right (hpend _ _)

/-- **Blocks converge.** From a start where the agent holds its blocks, or else from any reset on that a reconcile sends it,
if every step is timely, then at rest the agent holds exactly the blocks of the list that cover it. -/
theorem blocklist_converges {ops₁ ops₂ : List Op} (hstart : Start s n)
    (hu : Along (step T) (Undisturbed T n) s (ops₁ ++ ops₂))
    (hfrom : (ops₁ = [] ∧ (s.agents n).held = s.covering n) ∨ (runs (step T) s ops₁).resetting n)
    (ht : Along (step T) (Timely n) (runs (step T) s ops₁) ops₂) (hrest : AtRest (runs (step T) s (ops₁ ++ ops₂)) n) :
    ((runs (step T) s (ops₁ ++ ops₂)).agents n).held = (runs (step T) s (ops₁ ++ ops₂)).covering n := by
  obtain ⟨hu₁, hu₂⟩ := along_append.1 hu
  have hsteady : Steady (runs (step T) s ops₁) n :=
    hu₁.invariant (I := fun s => Steady s n) (fun _ _ h hop => step_steady h hop) hstart.steady
  have hagrees : Agrees (runs (step T) s ops₁) n := by
    rcases hfrom with ⟨rfl, hheld⟩ | hreset
    · have hsettled : s.settled n = s.covering n := by rw [Net.settled, hstart.channel, List.foldl_nil, hheld]
      refine Or.inr ⟨fun row hrow hcov => Or.inl ?_, fun x hx => ?_⟩
      · rw [runs_nil, hsettled]
        exact ⟨row, hrow, hcov, rfl⟩
      · rw [runs_nil, hsettled] at hx
        obtain ⟨row, hrow, hcov, hent⟩ := hx
        exact ⟨row, hcov, hent, Or.inl hrow⟩
    · exact Or.inl hreset
  rw [runs_append] at hrest ⊢
  have hfinal := (hu₂.and ht).invariant (I := fun s => Steady s n ∧ Agrees s n)
    (fun _ _ h hop => ⟨step_steady h.1 hop.1, step_agrees h.1 h.2 hop.1 hop.2⟩) ⟨hsteady, hagrees⟩
  exact hfinal.2.atRest hrest

end Runs

/-! ## A snapshot from before a delete -/

/-- the task that an operation moves -/
def Op.task : Op → Option ℕ
  | .start t _ => some t
  | .advance t _ _ => some t
  | _ => none

theorem tasks_untouched (T : IpText) {s : Net} {t : ℕ} {ops : List Op} (h : ∀ op ∈ ops, op.task ≠ some t) :
    (runs (step T) s ops).tasks t = s.tasks t := by
  induction ops generalizing s with
  | nil => rfl
  | cons op ops ih =>
    rw [runs_cons, ih fun op' hop' => h op' (List.mem_cons_of_mem _ hop')]
    have hop := h op List.mem_cons_self
    cases op with
    | start t' call =>
      show (if s.tasks t' = .idle then s.goto t' call.task else s).tasks t = s.tasks t
      split_ifs
      · exact goto_ne fun heq => hop (congrArg some heq.symm)
      · rfl
    | advance t' ok id => exact (advance_frame t' ok id).2.2 t fun heq => hop (congrArg some heq.symm)
    | deliver m faults incomingOrder orphanOrder => simp only [step]; split <;> rfl
    | connect m protocol => rfl
    | disconnect m => rfl
    | capabilities m caps mirror => rfl
    | externalIp m ip => rfl

/-- one agent, connected and capable, and no block -/
def oneAgent : Net where
  rows := ∅
  issued := []
  conns := ⟨[⟨7, 2⟩], by decide⟩
  caps := fun _ => some capFirewallBlock
  mirror := fun _ => 0
  lock := false
  tasks := fun _ => .idle
  channels := fun _ => []
  agents := fun _ => Agent.new

def everywhere : BlockReq := ⟨"1.2.3.4/32", 4, "all", [], 0⟩

def deliverNext : Op := .deliver 7 noFaults ⟨id, fun l => List.Perm.refl l⟩ ⟨id, fun l => List.Perm.refl l⟩

/-- task 0 creates the first block, and its agent applies it -/
def createFirst : List Op :=
  [.start 0 (.createBlock everywhere), .advance 0 true 1, .advance 0 true 0, .advance 0 true 0, .advance 0 true 0, deliverNext]

/-- task 1 deletes it -/
def deleteFirst : List Op :=
  [.start 1 (.deleteBlock 1), .advance 1 true 0, .advance 1 true 0, .advance 1 true 0, .advance 1 true 0, .advance 1 true 0]

/-- task 0 reconciles the agent, up to its read of the list -/
def readList : List Op :=
  [.start 0 (.reconcileAgent 7), .advance 0 true 0, .advance 0 true 0, .advance 0 true 0, .advance 0 true 0]

def sendSnapshot : List Op := [.advance 0 true 0, .advance 0 true 0, deliverNext, deliverNext, deliverNext]

def staleRun : List Op := createFirst ++ readList ++ deleteFirst ++ sendSnapshot

theorem oneAgent_start : Start oneAgent 7 where
  tasks := fun _ => rfl
  channel := rfl
  issued := rfl
  sound := fun h => by cases h
  eligible := ⟨⟨⟨7, 2⟩, List.mem_singleton_self _, rfl, le_refl 2⟩, capFirewallBlock, rfl, by decide⟩

theorem idle_of_two {s : Net} (h0 : s.tasks 0 = .idle) (h1 : s.tasks 1 = .idle) (h : ∀ t, t ≠ 0 → t ≠ 1 → s.tasks t = .idle) :
    ∀ t, s.tasks t = .idle
  | 0 => h0
  | 1 => h1
  | t + 2 => h (t + 2) (by omega) (by omega)

/-- two tasks run -/
theorem atRest_of_two {ops : List Op} (hops : ∀ op ∈ ops, op.task = none ∨ op.task = some 0 ∨ op.task = some 1)
    (h0 : (runs (step oneAddress) oneAgent ops).tasks 0 = .idle) (h1 : (runs (step oneAddress) oneAgent ops).tasks 1 = .idle)
    (hch : (runs (step oneAddress) oneAgent ops).channels 7 = []) : AtRest (runs (step oneAddress) oneAgent ops) 7 := by
  refine ⟨idle_of_two h0 h1 fun t ht0 ht1 => tasks_untouched oneAddress fun op hop => ?_, hch⟩
  rcases hops op hop with h | h | h <;> rw [h] <;> simp [Ne.symm ht0, Ne.symm ht1]

theorem staleRun_rest : AtRest (runs (step oneAddress) oneAgent staleRun) 7 :=
  atRest_of_two (by simp [staleRun, createFirst, readList, deleteFirst, sendSnapshot, deliverNext, Op.task])
    (by decide +kernel) (by decide +kernel) (by decide +kernel)

/-- the guardrail passes what the agent is about to handle -/
def Passes (s : Net) (_ : Op) : Prop :=
  ∀ msg ∈ (s.channels 7).head?, ∀ e ∈ msg.entries, check oneAddress e.target (s.agents 7).externalIp = none

instance : ∀ s op, Decidable (Passes s op) := fun s _ =>
  inferInstanceAs (Decidable (∀ msg ∈ (s.channels 7).head?, ∀ e ∈ msg.entries,
    check oneAddress e.target (s.agents 7).externalIp = none))

theorem undisturbed_of_passes {s : Net} {ops : List Op} (hops : ∀ op ∈ ops, op = deliverNext ∨ op.task.isSome = true)
    (h : Along (step oneAddress) Passes s ops) : Along (step oneAddress) (Undisturbed oneAddress 7) s ops := by
  refine h.imp fun op hop s hs => ?_
  rcases hops op hop with rfl | htask
  · exact fun _ => ⟨rfl, hs⟩
  · cases op <;> trivial

theorem oneAgent_agrees : (oneAgent.agents 7).held = oneAgent.covering 7 := by
  have hheld : (oneAgent.agents 7).held = ∅ := Set.eq_empty_of_forall_notMem fun x => Table.not_mem_empty x
  rw [hheld, eq_comm]
  refine Set.eq_empty_of_forall_notMem ?_
  rintro x ⟨row, hrow, -⟩
  exact Table.not_mem_empty row hrow

theorem staleRun_undisturbed : Along (step oneAddress) (Undisturbed oneAddress 7) oneAgent staleRun :=
  undisturbed_of_passes (by simp [staleRun, createFirst, readList, deleteFirst, sendSnapshot, Op.task]) (by decide +kernel)

/-- **A deleted block comes back.** A reconcile reads the list, the block is deleted and its removal is sent, and then the
reconcile sends what it read: at rest the list is empty, and the agent holds the block. -/
theorem sync_resurrects_block :
    ¬ ∀ (T : IpText) (s : Net) (n : ℕ) (ops : List Op), Start s n → (s.agents n).held = s.covering n →
      Along (step T) (Undisturbed T n) s ops → AtRest (runs (step T) s ops) n →
      ((runs (step T) s ops).agents n).held = (runs (step T) s ops).covering n := by
  intro hall
  have hconv := hall oneAddress oneAgent 7 staleRun oneAgent_start oneAgent_agrees staleRun_undisturbed staleRun_rest
  have hheld : ((runs (step oneAddress) oneAgent staleRun).agents 7).desired.rows = [firstEntry] := by decide +kernel
  have hrows : (runs (step oneAddress) oneAgent staleRun).rows.rows = [] := by decide +kernel
  have hmem : firstEntry ∈ ((runs (step oneAddress) oneAgent staleRun).agents 7).held := by
    show firstEntry ∈ ((runs (step oneAddress) oneAgent staleRun).agents 7).desired.rows
    rw [hheld]
    exact List.mem_singleton_self _
  rw [hconv] at hmem
  obtain ⟨row, hrow, -⟩ := hmem
  have hrow : row ∈ (runs (step oneAddress) oneAgent staleRun).rows.rows := hrow
  rw [hrows] at hrow
  cases hrow

/-- one task after the other -/
def orderlyRun : List Op := createFirst ++ deleteFirst ++ [deliverNext]

theorem orderlyRun_timely : Along (step oneAddress) (Timely 7) oneAgent orderlyRun :=
  ⟨trivial, trivial, trivial, fun _ _ => Or.inl (List.mem_singleton_self _), trivial, trivial, trivial, trivial, trivial,
    trivial, trivial, trivial, trivial, trivial⟩

/-- a block created and deleted -/
theorem orderlyRun_converges :
    ((runs (step oneAddress) oneAgent ([] ++ orderlyRun)).agents 7).held =
      (runs (step oneAddress) oneAgent ([] ++ orderlyRun)).covering 7 :=
  blocklist_converges oneAgent_start
    (undisturbed_of_passes (by simp [orderlyRun, createFirst, deleteFirst, Op.task]) (by decide +kernel))
    (Or.inl ⟨rfl, oneAgent_agrees⟩) orderlyRun_timely
    (atRest_of_two (by simp [orderlyRun, createFirst, deleteFirst, deliverNext, Op.task]) (by decide +kernel)
      (by decide +kernel) (by decide +kernel))

end ServerBee.Firewall
