/-
Outcomes of push jobs over whole runs.

`step_row` says once what a step can do to a row: nothing, the expiry sweep, ineligibility, a lease, or a recorded
response. The sweep and the recorded response take the lease off the row; ineligibility leaves it there. So a response
that comes after its lease has elapsed, and after the job was closed as ineligible, is still recorded: the closed job
can become retryable again, without its envelope (`late_response_reopens`).

`outcomes_final` is the property on every run in which no job is closed as ineligible while a worker still holds the
lease that its row stores.
-/
import ServerBee.Push.Leases

namespace ServerBee.Push

/-! ## What a step does to a row -/

section Rows

variable {C : Crates} {s : St}

inductive RowMove (C : Crates) (s : St) (op : Op) (j : Job) : Job → Prop where
  | same : RowMove C s op j j
  | swept (ho : j.outcome.isOpen = true) : RowMove C s op j j.expire
  | refused (w : ℕ) (now eligibleNow : ℤ) (pick : Key) (hop : op = .claim w eligibleNow pick)
      (hw : s.workers w = .polled now) (hj : j ∈ sweep now s.db.outbox) (hk : j.key = pick)
      (hs : selects (sweep now s.db.outbox) now j = true) (he : eligible C s.db.world eligibleNow j = none) :
      RowMove C s op j j.refuse
  | leased (now : ℤ) (ho : j.outcome.isOpen = true) : RowMove C s op j (j.lease s.nextLease now)
  | recorded (w : ℕ) (g : Grant) (d : RelayDelivery) (finished : ℤ) (hw : s.workers w = .received g d finished)
      (hh : g.holds j = true) : RowMove C s op j (recordRow g d finished j)

theorem RowMove.key {op : Op} {j j' : Job} (h : RowMove C s op j j') : j'.key = j.key := by cases h <;> rfl

theorem selects_due {outbox : List Job} {now : ℤ} {j : Job} (h : selects outbox now j = true) : j.isDue now = true := by
  simp only [selects, Bool.and_eq_true] at h
  exact h.1

theorem isDue_open {now : ℤ} {j : Job} (h : j.isDue now = true) : j.outcome.isOpen = true := by
  simp only [Job.isDue, Bool.and_eq_true] at h
  exact h.1.1

theorem sweep_row {op : Op} {now : ℤ} {j' : Job} (h : j' ∈ sweep now s.db.outbox) :
    ∃ j ∈ s.db.outbox, RowMove C s op j j' ∧ (j'.outcome.isOpen = true → j' = j) := by
  obtain ⟨j, hj, rfl⟩ := mem_updateWhere.1 h
  refine ⟨j, hj, ?_⟩
  split_ifs with hc
  · simp only [Bool.and_eq_true] at hc
    exact ⟨.swept hc.1.1, nofun⟩
  · exact ⟨.same, fun _ => rfl⟩

/-- every row after a step is a new one, or comes from a row by one of the five moves -/
theorem step_row (h : Inv s) (op : Op) {j' : Job} (hj' : j' ∈ (step C s op).db.outbox) :
    (∃ j ∈ s.db.outbox, RowMove C s op j j') ∨
      (j'.isNew = true ∧ (∀ j ∈ s.db.outbox, j.key ≠ j'.key) ∧ (step C s op).enqueued = s.enqueued ++ [j']) := by
  cases op with
  | enqueue job =>
    simp only [step] at hj' ⊢
    split_ifs at hj' ⊢ with hc
    · rcases List.mem_append.1 hj' with hj' | hj'
      · exact Or.inl ⟨j', hj', .same⟩
      · obtain rfl := List.mem_singleton.1 hj'
        exact Or.inr ⟨hc.1, by simpa using hc.2, rfl⟩
    · exact Or.inl ⟨j', hj', .same⟩
  | world w => exact Or.inl ⟨j', hj', .same⟩
  | poll w now =>
    refine Or.inl ⟨j', ?_, .same⟩
    simp only [step] at hj'
    split at hj'
    · split_ifs at hj' <;> exact hj'
    · exact hj'
  | respond w configured reply finished =>
    refine Or.inl ⟨j', ?_, .same⟩
    simp only [step] at hj'
    split at hj'
    · split_ifs at hj' <;> exact hj'
    · exact hj'
  | crash w => exact Or.inl ⟨j', hj', .same⟩
  | record w =>
    left
    simp only [step] at hj'
    split at hj'
    · rename_i g d finished hw
      split at hj'
      · exact ⟨j', hj', .same⟩
      · rename_i db' hrec
        obtain ⟨-, hout, -⟩ := record_some hrec
        change j' ∈ db'.outbox at hj'
        rw [hout] at hj'
        obtain ⟨j, hj, rfl⟩ := mem_updateWhere.1 hj'
        refine ⟨j, hj, ?_⟩
        split_ifs with hh
        · exact .recorded w g d finished hw hh
        · exact .same
    · exact ⟨j', hj', .same⟩
  | claim w eligibleNow pick =>
    left
    simp only [step] at hj'
    split at hj'
    · rename_i now hw
      have hkeys : ((sweep now s.db.outbox).map Job.key).Nodup := by rw [sweep_keys]; exact h.key_nodup
      split at hj'
      · exact ⟨j', hj', .same⟩
      · obtain ⟨j, hj, hm, -⟩ := sweep_row hj'
        exact ⟨j, hj, hm⟩
      · rename_i job hfind
        obtain hc | ⟨job', hmem, hdue, hpick, hsel, hc⟩ := findClaim_picked hfind
        · cases hc
        obtain ⟨hc, hel⟩ | ⟨row', hc, -⟩ := hc
        · cases hc
          obtain ⟨j1, hj1, rfl⟩ := mem_updateWhere.1 hj'
          split_ifs with hk
          · have he : j1 = job := key_inj hkeys hj1 hmem (by simpa using hk)
            subst he
            obtain ⟨j, hj, -, hsame⟩ := @sweep_row C s (.claim w eligibleNow pick) _ _ hj1
            have hjj := hsame (isDue_open hdue)
            subst hjj
            exact ⟨j1, hj, .refused w now eligibleNow pick rfl hw hmem hpick hsel hel⟩
          · obtain ⟨j, hj, hm, -⟩ := sweep_row hj1
            exact ⟨j, hj, hm⟩
        · cases hc
      · rename_i job row hfind
        obtain hc | ⟨job', hmem, hdue, -, -, hc⟩ := findClaim_picked hfind
        · cases hc
        obtain ⟨hc, -⟩ | ⟨row', hc, -⟩ := hc
        · cases hc
        cases hc
        obtain ⟨j1, hj1, rfl⟩ := mem_updateWhere.1 hj'
        split_ifs with hk
        · have he : j1 = job := key_inj hkeys hj1 hmem (by simpa using hk)
          subst he
          obtain ⟨j, hj, -, hsame⟩ := @sweep_row C s (.claim w eligibleNow pick) _ _ hj1
          have hjj := hsame (isDue_open hdue)
          subst hjj
          exact ⟨j1, hj, .leased now (isDue_open hdue)⟩
        · obtain ⟨j, hj, hm, -⟩ := sweep_row hj1
          exact ⟨j, hj, hm⟩
    · exact ⟨j', hj', .same⟩

theorem step_keys (op : Op) : ∃ l, (step C s op).db.outbox.map Job.key = s.db.outbox.map Job.key ++ l := by
  cases op with
  | enqueue job =>
    simp only [step]
    split_ifs
    · exact ⟨[job.key], by simp⟩
    · exact ⟨[], by simp⟩
  | world w => exact ⟨[], by simp [step]⟩
  | crash w => exact ⟨[], by simp [step, St.setWorker]⟩
  | poll w now =>
    refine ⟨[], ?_⟩
    simp only [step, List.append_nil]
    split
    · split_ifs <;> rfl
    · rfl
  | respond w configured reply finished =>
    refine ⟨[], ?_⟩
    simp only [step, List.append_nil]
    split
    · split_ifs <;> rfl
    · rfl
  | record w =>
    refine ⟨[], ?_⟩
    simp only [step, List.append_nil]
    split
    · split
      · rfl
      · rename_i db' hrec
        obtain ⟨-, hout, -⟩ := record_some hrec
        show db'.outbox.map Job.key = _
        rw [hout]
        exact updateWhere_keys fun _ => rfl
    · rfl
  | claim w eligibleNow pick =>
    refine ⟨[], ?_⟩
    simp only [step, List.append_nil]
    split
    · split
      · rfl
      · exact sweep_keys _ _
      · rename_i now _ _ job _
        have h1 : (closeIneligible job.key (sweep now s.db.outbox)).map Job.key = _ := updateWhere_keys fun _ => rfl
        exact h1.trans (sweep_keys _ _)
      · rename_i now _ _ job row _
        have h1 : (grantLease job.key s.nextLease now (sweep now s.db.outbox)).map Job.key = _ :=
          updateWhere_keys fun _ => rfl
        exact h1.trans (sweep_keys _ _)
    · rfl

/-- a worker in flight after a step was in flight before it, or has just been granted the next lease -/
theorem step_grants (op : Op) {w : ℕ} {g : Grant} (hg : ((step C s op).workers w).grant = some g) :
    (s.workers w).grant = some g ∨ g.lease = s.nextLease := by
  have hset : ∀ (s' : St) (w' : ℕ) (worker : Worker), s'.workers = s.workers →
      (∀ g, worker.grant = some g → (s.workers w').grant = some g ∨ g.lease = s.nextLease) →
      ((s'.setWorker w' worker).workers w).grant = some g → (s.workers w).grant = some g ∨ g.lease = s.nextLease := by
    intro s' w' worker hs' hw' h
    by_cases hw : w = w'
    · subst hw
      simp only [St.setWorker, Function.update_self] at h
      exact hw' g h
    · simp only [St.setWorker, Function.update_of_ne hw, hs'] at h
      exact Or.inl h
  cases op with
  | enqueue job =>
    simp only [step] at hg
    split_ifs at hg <;> exact Or.inl hg
  | world w => exact Or.inl hg
  | crash w' => exact hset s w' .idle rfl (fun _ hg => by cases hg) hg
  | poll w' now =>
    simp only [step] at hg
    split at hg
    · split_ifs at hg
      · exact hset s w' (.polled now) rfl (fun _ hg => by cases hg) hg
      · exact Or.inl hg
    · exact Or.inl hg
  | respond w' configured reply finished =>
    simp only [step] at hg
    split at hg
    · rename_i g0 hw0
      split_ifs at hg
      · exact hset s w' _ rfl (fun g' hg' => Or.inl (by rw [hw0]; exact hg')) hg
      · exact Or.inl hg
    · exact Or.inl hg
  | record w' =>
    simp only [step] at hg
    split at hg
    · split at hg
      · exact hset s w' .idle rfl (fun _ hg => by cases hg) hg
      · exact hset _ w' .idle rfl (fun _ hg => by cases hg) hg
    · exact Or.inl hg
  | claim w' eligibleNow pick =>
    simp only [step] at hg
    split at hg
    · split at hg
      · exact Or.inl hg
      · exact hset _ w' .idle rfl (fun _ hg => by cases hg) hg
      · exact hset _ w' .idle rfl (fun _ hg => by cases hg) hg
      · refine hset _ w' _ rfl (fun g' hg' => Or.inr ?_) hg
        cases hg'
        rfl
    · exact Or.inl hg

theorem step_enqueued (op : Op) {j0 : Job} (h : j0 ∈ (step C s op).enqueued) :
    j0 ∈ s.enqueued ∨ (∀ j ∈ s.db.outbox, j.key ≠ j0.key) ∧ j0 ∈ (step C s op).db.outbox := by
  cases op with
  | enqueue job =>
    simp only [step] at h ⊢
    split_ifs at h ⊢ with hc
    · rcases List.mem_append.1 h with h | h
      · exact Or.inl h
      · obtain rfl := List.mem_singleton.1 h
        exact Or.inr ⟨by simpa using hc.2, List.mem_append_right _ (List.mem_singleton.2 rfl)⟩
    · exact Or.inl h
  | _ =>
    left
    simp only [step] at h
    repeat' split at h
    all_goals exact h

end Rows

/-! ## A late response

A lease lasts thirty seconds and a send fifteen, but nothing stops a worker that is slower than that. Here worker 0
answers forty seconds after its grant; at thirty-one seconds the session was gone and worker 1 closed the job. -/

def testCrates : Crates where
  uuidCanonical := fun s => s == "67e55044-10b1-426f-9247-bb680e5fe0c8"
  base64Decode := fun s => if s = "AAAAAAAAAAAAAAAAAAAAAAAAAAAAAAAAAAAAAAAAAAA=" then some 32 else none
  parseUrl := fun s => if s = "https://bee.example" then some ⟨"https", some "bee.example", none⟩ else none
  jsonValid := fun s => s == "{}"

def testRegistration : Registration :=
  ⟨1, 1, 1, 1, true, true, true, true, true, some "ab01", some "sandbox", some "67e55044-10b1-426f-9247-bb680e5fe0c8",
    some "AAAAAAAAAAAAAAAAAAAAAAAAAAAAAAAAAAAAAAAAAAA=", some "https://bee.example"⟩

def testWorld : World := ⟨[testRegistration], [⟨1, 1, 1, 0, 100⟩], [⟨1, "admin", false, none⟩], [], []⟩

def testJob : Job := ⟨1, 1, 1, 1, 1, "admin", none, "test", 1000, some "{}", .pending, "Queued", 0, 0, none, 0⟩

/-- worker 0 is granted the job; the session goes; worker 1 closes the job as ineligible -/
def refusedRun : List Op :=
  [.enqueue testJob, .poll 0 0, .claim 0 0 (1, 1), .world { testWorld with sessions := [] }, .poll 1 31,
    .claim 1 31 (1, 1)]

/-- worker 0's answer comes after all -/
def lateAnswer : List Op := [.respond 0 true (.http 500 none) 40, .record 0]

theorem late_response_reopens :
    (∃ j ∈ (run testCrates (St.init testWorld) refusedRun).db.outbox,
      j.key = (1, 1) ∧ j.outcome = .permanent ∧ j.envelope = none) ∧
    ∃ j ∈ (run testCrates (St.init testWorld) (refusedRun ++ lateAnswer)).db.outbox,
      j.key = (1, 1) ∧ j.outcome = .retryable ∧ j.envelope = none := by
  decide

/-! ## Closed jobs stay closed -/

/-- a job is closed as ineligible while some worker still holds the lease that its row stores -/
def LateRefusal (C : Crates) (s : St) (op : Op) : Prop :=
  ∃ w eligibleNow pick now job w' g, op = .claim w eligibleNow pick ∧ s.workers w = .polled now ∧
    job ∈ sweep now s.db.outbox ∧ job.key = pick ∧ selects (sweep now s.db.outbox) now job = true ∧
    eligible C s.db.world eligibleNow job = none ∧ (s.workers w').grant = some g ∧ job.leaseId = some g.lease

/-- no step of the run does that -/
def CleanRun (C : Crates) : St → List Op → Prop
  | _, [] => True
  | s, op :: ops => ¬ LateRefusal C s op ∧ CleanRun C (step C s op) ops

structure FinalInv (s : St) : Prop where
  base : Inv s
  sealed : ∀ j ∈ s.db.outbox, j.outcome.isOpen = false → j.envelope = none
  kept : ∀ j ∈ s.db.outbox, j.outcome.isOpen = true → ∀ j0 ∈ s.enqueued, j0.key = j.key → j.envelope = j0.envelope
  released : ∀ j ∈ s.db.outbox, j.outcome.isOpen = false → ∀ w g, (s.workers w).grant = some g →
    j.leaseId ≠ some g.lease
  enqueued_row : ∀ j0 ∈ s.enqueued, ∃ j ∈ s.db.outbox, j.key = j0.key

theorem finalInv_init (w : World) : FinalInv (St.init w) := by
  refine ⟨inv_init w, ?_, ?_, ?_, ?_⟩ <;> simp [St.init]

section Final

variable {C : Crates} {s : St}

/-- a closed row is not touched -/
theorem FinalInv.closed_move (h : FinalInv s) {op : Op} {j j' : Job} (hj : j ∈ s.db.outbox)
    (hc : j.outcome.isOpen = false) (hm : RowMove C s op j j') : j' = j := by
  cases hm with
  | same => rfl
  | swept ho => rw [hc] at ho; cases ho
  | refused w now eligibleNow pick hop hw hj' hk hs he => rw [isDue_open (selects_due hs)] at hc; cases hc
  | leased now ho => rw [hc] at ho; cases ho
  | recorded w g d finished hw hh =>
    simp only [Grant.holds, Bool.and_eq_true, beq_iff_eq] at hh
    exact absurd hh.2 (h.released j hj hc w g (by rw [hw]; rfl))

theorem FinalInv.step (h : FinalInv s) {op : Op} (hclean : ¬ LateRefusal C s op) : FinalInv (step C s op) := by
  have hbase : Inv (Push.step C s op) := step_inv h.base op
  -- a lease that a row stores is older than the next one
  have hold : ∀ j ∈ s.db.outbox, j.leaseId ≠ some s.nextLease := by
    intro j hj hl
    obtain ⟨-, g, hg, he, -⟩ := (h.base.rows j hj).stored _ hl
    have := h.base.fresh g hg
    omega
  refine ⟨hbase, ?_, ?_, ?_, ?_⟩
  · intro j' hj' hc
    rcases step_row h.base op hj' with ⟨j, hj, hm⟩ | ⟨hnew, -⟩
    · cases hm with
      | same => exact h.sealed j' hj hc
      | swept ho => rfl
      | refused w now eligibleNow pick hop hw hj0 hk hs he => rfl
      | leased now ho => exact absurd (ho.symm.trans hc) nofun
      | recorded w g d finished hw hh =>
        show (if _ then _ else _) = _
        rw [if_neg]
        intro he
        rw [show (recordRow g d finished j).outcome = (finalVerdict g d finished).1.outcome from rfl, he] at hc
        cases hc
    · simp only [Job.isNew, Bool.and_eq_true, beq_iff_eq] at hnew
      rw [hnew.1.1.1] at hc
      cases hc
  · intro j' hj' ho j0 hj0 hk
    rcases step_row h.base op hj' with ⟨j, hj, hm⟩ | ⟨-, hnewkey, henq⟩
    · have hkj := hm.key
      have hj0' : j0 ∈ s.enqueued := by
        rcases step_enqueued op hj0 with h1 | ⟨h1, -⟩
        · exact h1
        · exact absurd (hk.trans hkj).symm (h1 j hj)
      cases hm with
      | same => exact h.kept j' hj ho j0 hj0' hk
      | swept _ => cases ho
      | refused w now eligibleNow pick hop hw hj1 hk1 hs he => cases ho
      | leased now ho' => exact h.kept j hj ho' j0 hj0' hk
      | recorded w g d finished hw hh =>
        have hretry : (finalVerdict g d finished).1 = .retryable := by
          simpa [recordRow] using ho
        show (if _ then _ else _) = _
        rw [if_pos hretry]
        -- the row still stores a lease in flight, so it is open
        have hopen : j.outcome.isOpen = true := by
          by_contra hcl
          simp only [Grant.holds, Bool.and_eq_true, beq_iff_eq] at hh
          exact h.released j hj (by simpa using hcl) w g (by rw [hw]; rfl) hh.2
        exact h.kept j hj hopen j0 hj0' hk
    · rw [henq] at hj0
      rcases List.mem_append.1 hj0 with hj0 | hj0
      · obtain ⟨j, hj, he⟩ := h.enqueued_row j0 hj0
        exact absurd (he.trans hk) (hnewkey j hj)
      · rw [List.mem_singleton.1 hj0]
  · intro j' hj' hc w g hg hl
    rcases step_row h.base op hj' with ⟨j, hj, hm⟩ | ⟨hnew, -⟩
    · cases hm with
      | same =>
        rcases step_grants op hg with h1 | h1
        · exact h.released j' hj hc w g h1 hl
        · exact hold j' hj (h1 ▸ hl)
      | swept _ => cases hl
      | refused w' now eligibleNow pick hop hw hj1 hk1 hs he =>
        rcases step_grants op hg with h1 | h1
        · exact hclean ⟨w', eligibleNow, pick, now, j, w, g, hop, hw, hj1, hk1, hs, he, h1, hl⟩
        · exact hold j hj (h1 ▸ hl)
      | leased now ho => exact absurd (ho.symm.trans hc) nofun
      | recorded w' g' d finished hw hh => cases hl
    · simp only [Job.isNew, Bool.and_eq_true, beq_iff_eq] at hnew
      rw [hnew.1.1.1] at hc
      cases hc
  · intro j0 hj0
    rcases step_enqueued op hj0 with h1 | ⟨-, h1⟩
    · obtain ⟨j, hj, he⟩ := h.enqueued_row j0 h1
      obtain ⟨l, hkeys⟩ := step_keys (C := C) (s := s) op
      have hin : j0.key ∈ (Push.step C s op).db.outbox.map Job.key := by
        rw [hkeys, ← he]
        exact List.mem_append_left _ (List.mem_map_of_mem hj)
      exact List.mem_map.1 hin
    · exact ⟨j0, h1, rfl⟩

theorem FinalInv.closed_step (h : FinalInv s) (op : Op) {j : Job} (hj : j ∈ s.db.outbox)
    (hc : j.outcome.isOpen = false) : j ∈ (Push.step C s op).db.outbox := by
  obtain ⟨l, hkeys⟩ := step_keys (C := C) (s := s) op
  have hin : j.key ∈ (Push.step C s op).db.outbox.map Job.key := by
    rw [hkeys]
    exact List.mem_append_left _ (List.mem_map_of_mem hj)
  obtain ⟨j', hj', hk⟩ := List.mem_map.1 hin
  rcases step_row h.base op hj' with ⟨j0, hj0, hm⟩ | ⟨-, hnewkey, -⟩
  · have he : j0 = j := key_inj h.base.key_nodup hj0 hj (hm.key.symm.trans hk)
    subst he
    exact h.closed_move hj hc hm ▸ hj'
  · exact absurd hk.symm (hnewkey j hj)

theorem FinalInv.run (h : FinalInv s) {ops : List Op} (hclean : CleanRun C s ops) :
    FinalInv (run C s ops) ∧ ∀ j ∈ s.db.outbox, j.outcome.isOpen = false → j ∈ (run C s ops).db.outbox := by
  induction ops generalizing s with
  | nil => exact ⟨h, fun j hj _ => hj⟩
  | cons op ops ih =>
    obtain ⟨h1, h2⟩ := ih (h.step hclean.1) hclean.2
    exact ⟨h1, fun j hj hc => h2 j (h.closed_step op hj hc) hc⟩

theorem cleanRun_append {pre post : List Op} (h : CleanRun C s (pre ++ post)) :
    CleanRun C s pre ∧ CleanRun C (run C s pre) post := by
  induction pre generalizing s with
  | nil => exact ⟨trivial, h⟩
  | cons op pre ih =>
    obtain ⟨h1, h2⟩ := ih h.2
    exact ⟨⟨h.1, h1⟩, h2⟩

end Final

/-- worker 0 is granted the job and its answer is recorded within the lease -/
def deliveredRun : List Op :=
  [.enqueue testJob, .poll 0 0, .claim 0 0 (1, 1),
    .respond 0 true (.http 200 (some ⟨"accepted", "Accepted", false⟩)) 5, .record 0]

/-- **Outcomes are final.** On a run in which no job is closed as ineligible under a worker that still holds its lease:
a closed job keeps its outcome and has no envelope in every later state, and an open job still has the envelope it was
enqueued with. -/
theorem outcomes_final (C : Crates) (world : World) (pre post : List Op)
    (hclean : CleanRun C (St.init world) (pre ++ post)) :
    let s := run C (St.init world) pre
    let s' := run C (St.init world) (pre ++ post)
    (∀ j ∈ s.db.outbox, j.outcome.isOpen = false → ∀ j' ∈ s'.db.outbox, j'.key = j.key →
      j'.outcome = j.outcome ∧ j'.envelope = none) ∧
    (∀ j' ∈ s'.db.outbox, j'.outcome.isOpen = true → ∀ j0 ∈ s'.enqueued, j0.key = j'.key →
      j0.envelope.isSome = true → j'.envelope.isSome = true) := by
  intro s s'
  obtain ⟨hpre, hpost⟩ := cleanRun_append hclean
  have h : FinalInv s := ((finalInv_init world).run hpre).1
  have hs' : s' = run C s post := List.foldl_append
  obtain ⟨h', hkeep⟩ := h.run hpost
  rw [← hs'] at h' hkeep
  refine ⟨fun j hj hc j' hj' hk => ?_, fun j' hj' ho j0 hj0 hk hsome => ?_⟩
  · have he : j' = j := key_inj h'.base.key_nodup hj' (hkeep j hj hc) hk
    subst he
    exact ⟨rfl, h'.sealed j' hj' hc⟩
  · rw [h'.kept j' hj' ho j0 hj0 hk]
    exact hsome

/-- the session removed afterwards, and another worker waking up -/
def afterDelivery : List Op := [.world { testWorld with sessions := [] }, .poll 1 31]

theorem deliveredRun_clean : CleanRun testCrates (St.init testWorld) (deliveredRun ++ afterDelivery) := by
  have hother : ∀ (s : St) (op : Op), (∀ w now pick, op ≠ .claim w now pick) → ¬ LateRefusal testCrates s op := by
    rintro s op hop ⟨w, now, pick, -, -, -, -, rfl, -⟩
    exact hop w now pick rfl
  refine ⟨hother _ _ nofun, hother _ _ nofun, ?_, hother _ _ nofun, hother _ _ nofun, hother _ _ nofun,
    hother _ _ nofun, trivial⟩
  -- at the claim the one row has never been leased
  rintro ⟨w, -, -, now, job, -, g, -, -, hjob, -, -, -, -, hlease⟩
  obtain ⟨j, hj, rfl⟩ := mem_updateWhere.1 hjob
  have hout : (step testCrates (step testCrates (St.init testWorld) (.enqueue testJob)) (.poll 0 0)).db.outbox =
      [testJob] := by decide
  rw [hout, List.mem_singleton] at hj
  subst hj
  split_ifs at hlease
  · cases hlease
  · cases hlease

theorem outcomes_final_delivered :
    CleanRun testCrates (St.init testWorld) (deliveredRun ++ afterDelivery) ∧
    ∀ j ∈ (run testCrates (St.init testWorld) deliveredRun).db.outbox, j.outcome.isOpen = false →
      ∀ j' ∈ (run testCrates (St.init testWorld) (deliveredRun ++ afterDelivery)).db.outbox, j'.key = j.key →
        j'.outcome = j.outcome ∧ j'.envelope = none := by
  refine ⟨deliveredRun_clean, ?_⟩
  exact (outcomes_final testCrates testWorld deliveredRun afterDelivery deliveredRun_clean).1

end ServerBee.Push
