/-
Lease fencing of the push outbox.

`RowInv` is what the histories of grants and recorded responses say about one row; every statement that touches the
outbox keeps it (`sweep_rows`, `close_rows`, `grant_rows`, `record_rows`). The spacing part looks at two columns: an
unrecorded lease keeps the job back through `lease_until`, and once a later lease has been recorded and `lease_until`
reset, through `next_attempt_at`, which then lies after that later grant.
-/
import ServerBee.Push.Model

namespace ServerBee.Push

/-! ## Updates by key -/

theorem mem_updateWhere {l : List Job} {p : Job → Bool} {set : Job → Job} {j' : Job} :
    j' ∈ updateWhere l p set ↔ ∃ j ∈ l, (if p j = true then set j else j) = j' := by
  simp [updateWhere]

theorem updateWhere_keys {l : List Job} {p : Job → Bool} {set : Job → Job} (h : ∀ j, (set j).key = j.key) :
    (updateWhere l p set).map Job.key = l.map Job.key := by
  simp only [updateWhere, List.map_map]
  refine List.map_congr_left fun j _ => ?_
  simp only [Function.comp]
  split_ifs
  · exact h j
  · rfl

theorem key_inj {l : List Job} (hnd : (l.map Job.key).Nodup) {j j' : Job} (hj : j ∈ l) (hj' : j' ∈ l)
    (hk : j.key = j'.key) : j = j' :=
  List.inj_on_of_nodup_map hnd hj hj' hk

/-! ## One row and its histories -/

/-- the leases granted for a job -/
def grantsOf (granted : List Grant) (key : Key) : List Grant := granted.filter fun g => g.job.key == key

structure RowInv (granted : List Grant) (recorded : List ℕ) (j : Job) : Prop where
  attempts : j.attempts = (grantsOf granted j.key).length
  copies : ∀ g ∈ granted, g.job.key = j.key → g.job.expiresAt = j.expiresAt
  stored : ∀ l, j.leaseId = some l → l ∉ recorded ∧ ∃ g ∈ granted, g.lease = l ∧ g.job.key = j.key ∧
    ∀ g' ∈ granted, g'.job.key = j.key → g'.lease ≠ l → g'.lease ∉ recorded → g'.now + leaseSeconds ≤ g.now
  spaced : ∀ g ∈ granted, g.job.key = j.key → g.lease ∉ recorded →
    g.now + leaseSeconds ≤ j.leaseUntil ∨ g.now + leaseSeconds ≤ j.nextAttemptAt ∨ j.outcome.isOpen = false
  bounded : ∀ g ∈ granted, g.job.key = j.key → g.lease ∈ recorded → j.nextAttemptAt ≤ j.expiresAt

structure Inv (s : St) : Prop where
  key_nodup : (s.db.outbox.map Job.key).Nodup
  fresh : ∀ g ∈ s.granted, g.lease < s.nextLease
  lease_nodup : (s.granted.map (·.lease)).Nodup
  recorded_fresh : ∀ l ∈ s.recorded, l < s.nextLease
  recorded_nodup : s.recorded.Nodup
  working : ∀ w g, (s.workers w).grant = some g → g ∈ s.granted ∧ g.worker = w
  onTime : ∀ w g d f, s.workers w = .received g d f → g.now ≤ f
  exists_row : ∀ g ∈ s.granted, ∃ j ∈ s.db.outbox, j.key = g.job.key
  rows : ∀ j ∈ s.db.outbox, RowInv s.granted s.recorded j

theorem inv_init (w : World) : Inv (St.init w) := by
  constructor <;> simp [St.init, Worker.grant]

section Rows

variable {granted : List Grant} {recorded : List ℕ} {outbox : List Job} {j : Job}

/-- closing a row keeps what the histories say about it -/
theorem RowInv.close (h : RowInv granted recorded j) {j' : Job} (hkey : j'.key = j.key)
    (hexp : j'.expiresAt = j.expiresAt) (hatt : j'.attempts = j.attempts) (hnext : j'.nextAttemptAt = j.nextAttemptAt)
    (hlease : j'.leaseId = none ∨ j'.leaseId = j.leaseId) (hclosed : j'.outcome.isOpen = false) :
    RowInv granted recorded j' := by
  refine ⟨?_, ?_, ?_, ?_, ?_⟩
  · rw [hatt, hkey]; exact h.attempts
  · rw [hkey, hexp]; exact h.copies
  · intro l hl
    rcases hlease with hn | he
    · rw [hn] at hl; cases hl
    · rw [hkey]
      exact h.stored l (he ▸ hl)
  · intro g _ _ _
    exact Or.inr (Or.inr hclosed)
  · rw [hkey, hexp, hnext]; exact h.bounded

theorem sweep_rows (now : ℤ) (h : ∀ j ∈ outbox, RowInv granted recorded j) :
    ∀ j ∈ sweep now outbox, RowInv granted recorded j := by
  intro j' hj'
  obtain ⟨j, hj, rfl⟩ := mem_updateWhere.1 hj'
  split_ifs
  · exact (h j hj).close rfl rfl rfl rfl (Or.inl rfl) rfl
  · exact h j hj

theorem close_rows (key : Key) (h : ∀ j ∈ outbox, RowInv granted recorded j) :
    ∀ j ∈ closeIneligible key outbox, RowInv granted recorded j := by
  intro j' hj'
  obtain ⟨j, hj, rfl⟩ := mem_updateWhere.1 hj'
  split_ifs
  · exact (h j hj).close rfl rfl rfl rfl (Or.inr rfl) rfl
  · exact h j hj

theorem grantsOf_snoc (granted : List Grant) (g : Grant) (key : Key) :
    grantsOf (granted ++ [g]) key = grantsOf granted key ++ (if g.job.key = key then [g] else []) := by
  simp only [grantsOf, List.filter_append, List.filter_cons, List.filter_nil, beq_iff_eq]

/-- a lease granted at `g.now` on the row that was due then -/
theorem grant_rows {g : Grant} (hrec : ∀ l ∈ recorded, l < g.lease)
    (hdue : ∀ j ∈ outbox, j.key = g.job.key → j.isDue g.now = true ∧ g.job.expiresAt = j.expiresAt)
    (h : ∀ j ∈ outbox, RowInv granted recorded j) :
    ∀ j ∈ grantLease g.job.key g.lease g.now outbox, RowInv (granted ++ [g]) recorded j := by
  intro j' hj'
  have hnot : g.lease ∉ recorded := fun hin => lt_irrefl _ (hrec _ hin)
  obtain ⟨j, hj, rfl⟩ := mem_updateWhere.1 hj'
  have hrow := h j hj
  by_cases hk : j.key = g.job.key
  · rw [if_pos (by simpa using hk)]
    obtain ⟨hdue, hexp⟩ := hdue j hj hk
    simp only [Job.isDue, Bool.and_eq_true, decide_eq_true_eq] at hdue
    -- whoever holds an unrecorded lease on this job got it thirty seconds before now
    have hgap : ∀ g' ∈ granted, g'.job.key = j.key → g'.lease ∉ recorded → g'.now + leaseSeconds ≤ g.now := by
      intro g' hg' hk' hr'
      rcases hrow.spaced g' hg' hk' hr' with h1 | h1 | h1
      · exact h1.trans hdue.2
      · exact h1.trans hdue.1.2
      · rw [h1] at hdue; cases hdue.1.1
    refine ⟨?_, ?_, ?_, ?_, ?_⟩
    · show j.attempts + 1 = _
      rw [hrow.attempts]
      show _ = (grantsOf (granted ++ [g]) j.key).length
      rw [grantsOf_snoc, if_pos hk.symm, List.length_append, List.length_singleton]
    · intro g' hg' hk'
      rcases List.mem_append.1 hg' with hg' | hg'
      · exact hrow.copies g' hg' hk'
      · rw [List.mem_singleton.1 hg']; exact hexp
    · rintro l ⟨⟩
      refine ⟨hnot, g, List.mem_append_right _ (List.mem_singleton.2 rfl), rfl, hk.symm, fun g' hg' hk' hne hr' => ?_⟩
      rcases List.mem_append.1 hg' with hg' | hg'
      · exact hgap g' hg' hk' hr'
      · rw [List.mem_singleton.1 hg'] at hne; exact absurd rfl hne
    · intro g' hg' hk' hr'
      left
      show g'.now + leaseSeconds ≤ g.now + leaseSeconds
      rcases List.mem_append.1 hg' with hg' | hg'
      · have := hgap g' hg' hk' hr'
        have : (0 : ℤ) ≤ leaseSeconds := by decide
        omega
      · rw [List.mem_singleton.1 hg']
    · intro g' hg' hk' hr'
      rcases List.mem_append.1 hg' with hg' | hg'
      · exact hrow.bounded g' hg' hk' hr'
      · rw [List.mem_singleton.1 hg'] at hr'; exact absurd hr' hnot
  · -- another job's row
    rw [if_neg (by simpa using hk)]
    have hold : ∀ g' ∈ granted ++ [g], g'.job.key = j.key → g' ∈ granted := by
      intro g' hg' hk'
      rcases List.mem_append.1 hg' with hg' | hg'
      · exact hg'
      · rw [List.mem_singleton.1 hg'] at hk'; exact absurd hk'.symm hk
    refine ⟨?_, fun g' hg' hk' => hrow.copies g' (hold g' hg' hk') hk', fun l hl => ?_,
      fun g' hg' hk' => hrow.spaced g' (hold g' hg' hk') hk', fun g' hg' hk' => hrow.bounded g' (hold g' hg' hk') hk'⟩
    · rw [grantsOf_snoc, if_neg (fun e => hk e.symm), List.append_nil]
      exact hrow.attempts
    · obtain ⟨h1, g0, hg0, h2, h3, h4⟩ := hrow.stored l hl
      exact ⟨h1, g0, List.mem_append_left _ hg0, h2, h3, fun g' hg' hk' => h4 g' (hold g' hg' hk') hk'⟩

theorem backoff_pos (attempts : ℕ) : 0 < backoff attempts := by
  unfold backoff
  have : (0 : ℤ) < 2 ^ min (attempts + 1) 8 := by positivity
  omega

/-- the response of `g`, whose lease the row stores, recorded at `finished` -/
theorem record_rows {g : Grant} (hg : g ∈ granted) (hnd : (granted.map (·.lease)).Nodup) {d : RelayDelivery}
    {finished : ℤ} (hfin : g.now ≤ finished) (h : ∀ j ∈ outbox, RowInv granted recorded j)
    (hkeys : (outbox.map Job.key).Nodup) (hheld : outbox.any g.holds = true) :
    ∀ j ∈ updateWhere outbox g.holds (recordRow g d finished), RowInv granted (recorded ++ [g.lease]) j := by
  intro j' hj'
  obtain ⟨j, hj, rfl⟩ := mem_updateWhere.1 hj'
  have hrow := h j hj
  have hweak : ∀ l, l ∉ recorded ++ [g.lease] → l ∉ recorded ∧ l ≠ g.lease := by
    intro l hl
    simpa using hl
  have heq : ∀ g' ∈ granted, g'.lease = g.lease → g' = g := fun g' hg' he => List.inj_on_of_nodup_map hnd hg' hg he
  by_cases hh : g.holds j = true
  · rw [if_pos hh]
    simp only [Grant.holds, Bool.and_eq_true, beq_iff_eq] at hh
    obtain ⟨hk, hl⟩ := hh
    obtain ⟨-, g0, hg0, hl0, -, hgap⟩ := hrow.stored g.lease hl
    rw [heq g0 hg0 hl0] at hgap
    have hexp := hrow.copies g hg hk.symm
    refine ⟨hrow.attempts, hrow.copies, fun l => nofun, fun g' hg' hk' hr' => ?_, fun g' _ _ _ => ?_⟩
    · obtain ⟨hr1, hr2⟩ := hweak _ hr'
      have hbefore := hgap g' hg' hk' hr2 hr1
      by_cases hopen : (finalVerdict g d finished).1 = .retryable
      · -- the deadline has not come, so the next attempt lies after this grant
        right; left
        show _ ≤ min (finished + backoff g.job.attempts) g.job.expiresAt
        have hb := backoff_pos g.job.attempts
        unfold finalVerdict at hopen
        split_ifs at hopen with hc
        have hlt : ¬ g.job.expiresAt ≤ finished := fun hle => hc ⟨hopen, hle⟩
        omega
      · right; right
        show (finalVerdict g d finished).1.outcome.isOpen = false
        simpa [← Bool.not_eq_true] using hopen
    · show min (finished + backoff g.job.attempts) g.job.expiresAt ≤ j.expiresAt
      rw [hexp]
      exact min_le_right _ _
  · rw [if_neg hh]
    refine ⟨hrow.attempts, hrow.copies, fun l hl => ?_, fun g' hg' hk' hr' => hrow.spaced g' hg' hk' (hweak _ hr').1,
      fun g' hg' hk' hr' => ?_⟩
    · obtain ⟨h1, g0, hg0, h2, h3, h4⟩ := hrow.stored l hl
      refine ⟨?_, g0, hg0, h2, h3, fun g' hg' hk' hne hr' => h4 g' hg' hk' hne (hweak _ hr').1⟩
      intro hin
      rcases List.mem_append.1 hin with hin | hin
      · exact h1 hin
      · have hlg := List.mem_singleton.1 hin
        rw [heq g0 hg0 (h2.trans hlg)] at h3
        refine hh ?_
        simp [Grant.holds, hl, hlg, h3]
    · rcases List.mem_append.1 hr' with hr' | hr'
      · exact hrow.bounded g' hg' hk' hr'
      · -- the only row that could have this key stores the lease
        rw [heq g' hg' (List.mem_singleton.1 hr')] at hk'
        obtain ⟨j0, hj0, h0⟩ := List.any_eq_true.1 hheld
        have hk0 : j0.key = g.job.key := by
          simp only [Grant.holds, Bool.and_eq_true, beq_iff_eq] at h0
          exact h0.1
        rw [key_inj hkeys hj0 hj (hk0.trans hk')] at h0
        exact absurd h0 hh

end Rows

/-! ## One step -/

section Steps

variable {C : Crates} {s : St} {w : ℕ}

theorem findClaim_picked {db : Db} {now eligibleNow : ℤ} {pick : Key} {c : Claim}
    (h : findClaim C db now eligibleNow pick = some c) :
    c = .nothingDue ∨ ∃ job ∈ sweep now db.outbox, job.isDue now = true ∧ job.key = pick ∧
      selects (sweep now db.outbox) now job = true ∧
      ((c = .ineligible job ∧ eligible C db.world eligibleNow job = none) ∨
        ∃ row, c = .granted job row ∧ eligible C db.world eligibleNow job = some row) := by
  unfold findClaim at h
  simp only at h
  split_ifs at h
  · exact Or.inl (Option.some.inj h).symm
  · split at h
    · cases h
    · rename_i job hfind
      split_ifs at h with hsel
      have hmem := List.mem_of_find?_eq_some hfind
      have hkey : job.key = pick := by simpa using List.find?_some hfind
      simp only [Bool.not_eq_false] at hsel
      have hdue : job.isDue now = true := by
        simp only [selects, Bool.and_eq_true] at hsel
        exact hsel.1
      refine Or.inr ⟨job, hmem, hdue, hkey, hsel, ?_⟩
      split at h
      · rename_i hel
        exact Or.inl ⟨(Option.some.inj h).symm, hel⟩
      · rename_i row hel
        exact Or.inr ⟨row, (Option.some.inj h).symm, hel⟩

/-- the eligible registration is one of the table's -/
theorem eligible_mem {world : World} {now : ℤ} {job : Job} {row : Registration}
    (h : eligible C world now job = some row) : row ∈ world.registrations := by
  unfold eligible at h
  split at h
  · cases h
  · simp only at h
    split at h
    · rename_i row' _ _ hrow _ _
      split_ifs at h
      cases h
      exact List.mem_of_find?_eq_some (Option.filter_eq_some_iff.1 hrow).1
    · cases h

theorem sweep_keys (now : ℤ) (outbox : List Job) : (sweep now outbox).map Job.key = outbox.map Job.key :=
  updateWhere_keys fun _ => rfl

/-- a worker's move that leaves the tables and the histories alone -/
theorem setWorker_inv (h : Inv s) {worker : Worker}
    (hgrant : ∀ g, worker.grant = some g → (s.workers w).grant = some g)
    (htime : ∀ g d f, worker = .received g d f → g.now ≤ f) : Inv (s.setWorker w worker) := by
  refine { h with working := fun w' g hg => ?_, onTime := fun w' g d f hw' => ?_ }
  · by_cases hw : w' = w
    · subst hw
      simp only [St.setWorker, Function.update_self] at hg
      exact h.working w' g (hgrant g hg)
    · simp only [St.setWorker, Function.update_of_ne hw] at hg
      exact h.working w' g hg
  · by_cases hw : w' = w
    · subst hw
      simp only [St.setWorker, Function.update_self] at hw'
      exact htime g d f hw'
    · simp only [St.setWorker, Function.update_of_ne hw] at hw'
      exact h.onTime w' g d f hw'

theorem idle_inv (h : Inv s) : Inv (s.setWorker w .idle) := setWorker_inv h (fun _ => nofun) (fun _ _ _ => nofun)

/-- the outbox rewritten row by row, keys kept -/
theorem outbox_inv (h : Inv s) {outbox : List Job} (hkeys : outbox.map Job.key = s.db.outbox.map Job.key)
    (hrows : ∀ j ∈ outbox, RowInv s.granted s.recorded j) : Inv { s with db := { s.db with outbox := outbox } } := by
  refine { h with key_nodup := hkeys ▸ h.key_nodup, exists_row := fun g hg => ?_, rows := hrows }
  obtain ⟨j, hj, hk⟩ := h.exists_row g hg
  have hin : g.job.key ∈ outbox.map Job.key := by rw [hkeys, ← hk]; exact List.mem_map_of_mem hj
  exact List.mem_map.1 hin

theorem enqueue_inv (h : Inv s) (job : Job) : Inv (step C s (.enqueue job)) := by
  simp only [step]
  split_ifs with hc
  · obtain ⟨hnew, hkey⟩ := hc
    simp only [Job.isNew, Bool.and_eq_true, beq_iff_eq] at hnew
    have hne : ∀ j ∈ s.db.outbox, j.key ≠ job.key := by simpa using hkey
    have hno : ∀ g ∈ s.granted, g.job.key ≠ job.key := by
      intro g hg e
      obtain ⟨j, hj, hk⟩ := h.exists_row g hg
      exact hne j hj (hk.trans e)
    refine { h with key_nodup := ?_, exists_row := fun g hg => ?_, rows := fun j hj => ?_ }
    · rw [List.map_append, List.nodup_append]
      refine ⟨h.key_nodup, by simp, ?_⟩
      intro a ha b hb hab
      obtain ⟨j, hj, rfl⟩ := List.mem_map.1 ha
      exact hne j hj (hab.trans (by simpa using hb))
    · obtain ⟨j, hj, hk⟩ := h.exists_row g hg
      exact ⟨j, List.mem_append_left _ hj, hk⟩
    · rcases List.mem_append.1 hj with hj | hj
      · exact h.rows j hj
      · rw [List.mem_singleton.1 hj]
        have hnil : grantsOf s.granted job.key = [] :=
          List.filter_eq_nil_iff.2 fun g hg => by simpa using hno g hg
        refine ⟨by rw [hnil, hnew.1.1.2]; rfl, fun g hg hk => absurd hk (hno g hg), fun l hl => ?_,
          fun g hg hk => absurd hk (hno g hg), fun g hg hk => absurd hk (hno g hg)⟩
        rw [hnew.1.2] at hl
        cases hl
  · exact h

/-- the state after lease `s.nextLease` is granted to worker `w` -/
def St.grant (s : St) (w : ℕ) (now : ℤ) (job : Job) (row : Registration) : St :=
  St.setWorker { s with
    db := { s.db with outbox := grantLease job.key s.nextLease now s.db.outbox }
    nextLease := s.nextLease + 1
    granted := s.granted ++ [⟨w, s.nextLease, now, job, row⟩] } w (.sending ⟨w, s.nextLease, now, job, row⟩)

theorem grant_inv (h : Inv s) {now : ℤ} {job : Job} (row : Registration) (hmem : job ∈ s.db.outbox)
    (hdue : job.isDue now = true) : Inv (s.grant w now job row) := by
  have hkeys : (grantLease job.key s.nextLease now s.db.outbox).map Job.key = s.db.outbox.map Job.key :=
    updateWhere_keys fun _ => rfl
  constructor
  · show ((grantLease _ _ _ _).map Job.key).Nodup
    rw [hkeys]; exact h.key_nodup
  · intro g hg
    rcases List.mem_append.1 hg with hg | hg
    · exact (h.fresh g hg).trans (Nat.lt_succ_self _)
    · rw [List.mem_singleton.1 hg]; exact Nat.lt_succ_self _
  · show ((s.granted ++ [_]).map Grant.lease).Nodup
    rw [List.map_append, List.nodup_append]
    refine ⟨h.lease_nodup, by simp, ?_⟩
    intro a ha b hb hab
    obtain ⟨g, hg, rfl⟩ := List.mem_map.1 ha
    have := h.fresh g hg
    simp only [List.map_cons, List.map_nil, List.mem_singleton] at hb
    omega
  · intro l hl; exact (h.recorded_fresh l hl).trans (Nat.lt_succ_self _)
  · exact h.recorded_nodup
  · intro w' g hg
    by_cases hw : w' = w
    · subst hw
      simp only [St.grant, St.setWorker, Function.update_self, Worker.grant, Option.some.injEq] at hg
      subst hg
      exact ⟨List.mem_append_right _ (List.mem_singleton.2 rfl), rfl⟩
    · simp only [St.grant, St.setWorker, Function.update_of_ne hw] at hg
      obtain ⟨h1, h2⟩ := h.working w' g hg
      exact ⟨List.mem_append_left _ h1, h2⟩
  · intro w' g d f hw'
    by_cases hw : w' = w
    · subst hw
      simp only [St.grant, St.setWorker, Function.update_self] at hw'
      cases hw'
    · simp only [St.grant, St.setWorker, Function.update_of_ne hw] at hw'
      exact h.onTime w' g d f hw'
  · intro g hg
    have hin : g.job.key ∈ s.db.outbox.map Job.key := by
      rcases List.mem_append.1 hg with hg | hg
      · obtain ⟨j, hj, hk⟩ := h.exists_row g hg
        exact hk ▸ List.mem_map_of_mem hj
      · rw [List.mem_singleton.1 hg]
        exact List.mem_map_of_mem hmem
    rw [← hkeys] at hin
    exact List.mem_map.1 hin
  · refine grant_rows (g := ⟨w, s.nextLease, now, job, row⟩) h.recorded_fresh (fun j hj hk => ?_) h.rows
    rw [key_inj h.key_nodup hj hmem hk]
    exact ⟨hdue, rfl⟩

theorem claim_inv (h : Inv s) (eligibleNow : ℤ) (pick : Key) : Inv (step C s (.claim w eligibleNow pick)) := by
  simp only [step]
  split
  · rename_i now hw
    have hswept := outbox_inv h (sweep_keys now s.db.outbox) (sweep_rows now h.rows)
    split
    · exact h
    · exact idle_inv hswept
    · rename_i job hfind
      exact idle_inv (outbox_inv hswept (updateWhere_keys fun _ => rfl) (close_rows job.key hswept.rows))
    · rename_i job row hfind
      obtain hc | ⟨job', hmem, hdue, -, -, hc⟩ := findClaim_picked hfind
      · cases hc
      obtain ⟨hc, -⟩ | ⟨row', hc, -⟩ := hc
      · cases hc
      cases hc
      exact grant_inv hswept row hmem hdue
  · exact h

theorem record_some {db db' : Db} {g : Grant} {d : RelayDelivery} {finished : ℤ}
    (h : record db g d finished = some db') :
    db.outbox.any g.holds = true ∧ db'.outbox = updateWhere db.outbox g.holds (recordRow g d finished) ∧
      (db'.world = db.world ∨
        db'.world = { db.world with registrations := clearDevice g.row db.world.registrations }) := by
  unfold record at h
  split_ifs at h with hheld
  cases h
  refine ⟨by simpa using hheld, rfl, ?_⟩
  split_ifs
  · exact Or.inr rfl
  · exact Or.inl rfl

theorem record_inv (h : Inv s) : Inv (step C s (.record w)) := by
  simp only [step]
  split
  · rename_i g d finished hw
    obtain ⟨hg, -⟩ := h.working w g (by rw [hw]; rfl)
    have hfin := h.onTime w g d finished hw
    split
    · exact idle_inv h
    · rename_i db' hrec
      obtain ⟨hheld, hout, -⟩ := record_some hrec
      obtain ⟨j, hj, hh⟩ := List.any_eq_true.1 hheld
      simp only [Grant.holds, Bool.and_eq_true, beq_iff_eq] at hh
      have hnot : g.lease ∉ s.recorded := ((h.rows j hj).stored g.lease hh.2).1
      have hkeys : db'.outbox.map Job.key = s.db.outbox.map Job.key := by
        rw [hout]
        exact updateWhere_keys fun _ => rfl
      refine idle_inv { h with key_nodup := hkeys ▸ h.key_nodup, recorded_fresh := fun l hl => ?_,
                               recorded_nodup := ?_, exists_row := fun g' hg' => ?_, rows := ?_ }
      · rcases List.mem_append.1 hl with hl | hl
        · exact h.recorded_fresh l hl
        · rw [List.mem_singleton.1 hl]; exact h.fresh g hg
      · rw [List.nodup_append]
        refine ⟨h.recorded_nodup, by simp, ?_⟩
        rintro a ha b hb rfl
        exact hnot (List.mem_singleton.1 hb ▸ ha)
      · obtain ⟨j', hj', hk⟩ := h.exists_row g' hg'
        have hin : g'.job.key ∈ db'.outbox.map Job.key := by rw [hkeys, ← hk]; exact List.mem_map_of_mem hj'
        exact List.mem_map.1 hin
      · show ∀ j ∈ db'.outbox, _
        rw [hout]
        exact record_rows hg h.lease_nodup hfin h.rows h.key_nodup hheld
  · exact h

theorem step_inv (h : Inv s) (op : Op) : Inv (step C s op) := by
  cases op with
  | enqueue job => exact enqueue_inv h job
  | world w => exact { h with }
  | poll w now =>
    simp only [step]
    split
    · split_ifs
      · exact setWorker_inv h (fun _ => nofun) (fun _ _ _ => nofun)
      · exact h
    · exact h
  | claim w eligibleNow pick => exact claim_inv h eligibleNow pick
  | respond w configured reply finished =>
    simp only [step]
    split
    · rename_i g hw
      split_ifs with hle
      · refine setWorker_inv h (fun g' hg' => ?_) (fun g' d f he => ?_)
        · rw [hw]; exact hg'
        · cases he; exact hle
      · exact h
    · exact h
  | record w => exact record_inv h
  | crash w => exact idle_inv h

theorem run_inv (h : Inv s) (ops : List Op) : Inv (run C s ops) := by
  induction ops generalizing s with
  | nil => exact h
  | cons op ops ih => exact ih (step_inv h op)

end Steps

/-! ## The theorem -/

section Consequences

variable {C : Crates} {s : St} {w : ℕ}

/-- every sending identity field of `r` is as it was in `row` -/
def Unchanged (r row : Registration) : Prop :=
  r.installationId = row.installationId ∧ r.userId = row.userId ∧ r.mobileSessionId = row.mobileSessionId ∧
    r.revision = row.revision ∧ r.deviceToken = row.deviceToken ∧ r.environment = row.environment ∧
    r.contentKeyId = row.contentKeyId ∧ r.contentKey = row.contentKey ∧ r.deploymentId = row.deploymentId

theorem sameIdentity_unchanged {r row : Registration} (h : sameIdentity r row = true) : Unchanged r row := by
  simp only [sameIdentity, sqlEq, Bool.and_eq_true, beq_iff_eq] at h
  obtain ⟨⟨⟨⟨⟨⟨⟨⟨h1, h2⟩, h3⟩, h4⟩, h5⟩, h6⟩, h7⟩, h8⟩, h9⟩ := h
  exact ⟨h1, h2, h3, h4, h5.2, h6.2, h7.2, h8.2, h9.2⟩

/-- no two workers work on one lease -/
theorem lease_worker (h : Inv s) {w w' : ℕ} {g g' : Grant} (hw : (s.workers w).grant = some g)
    (hw' : (s.workers w').grant = some g') (he : g'.lease = g.lease) : w' = w := by
  obtain ⟨h1, rfl⟩ := h.working w g hw
  obtain ⟨h2, rfl⟩ := h.working w' g' hw'
  rw [List.inj_on_of_nodup_map h.lease_nodup h2 h1 he]

/-- a recording step changes a row only for the worker whose lease the row stores -/
theorem recorded_by_holder (h : Inv s) {j j' : Job} (hj : j ∈ s.db.outbox)
    (hj' : j' ∈ (step C s (.record w)).db.outbox) (hk : j'.key = j.key) (hne : j' ≠ j) :
    ∃ g d finished, s.workers w = .received g d finished ∧ g.job.key = j.key ∧ j.leaseId = some g.lease := by
  have hself : j' ∉ s.db.outbox := fun hin => hne (key_inj h.key_nodup hin hj hk)
  simp only [step] at hj'
  split at hj'
  · rename_i g d finished hw
    split at hj'
    · exact absurd hj' hself
    · rename_i db' hrec
      obtain ⟨-, hout, -⟩ := record_some hrec
      change j' ∈ db'.outbox at hj'
      rw [hout] at hj'
      obtain ⟨j0, hj0, he⟩ := mem_updateWhere.1 hj'
      split_ifs at he with hh
      · have hk0 : j0.key = j.key := by rw [← hk, ← he]; rfl
        rw [key_inj h.key_nodup hj0 hj hk0] at hh
        simp only [Grant.holds, Bool.and_eq_true, beq_iff_eq] at hh
        exact ⟨g, d, finished, hw, hh.1.symm, hh.2⟩
      · exact absurd (he ▸ hj0) hself
  · exact absurd hj' hself

/-- a lease is granted only thirty seconds after every unrecorded one on the same job -/
theorem grant_spaced (h : Inv s) {eligibleNow : ℤ} {pick : Key} {g' : Grant}
    (hgrant : (step C s (.claim w eligibleNow pick)).granted = s.granted ++ [g']) :
    g'.row ∈ s.db.world.registrations ∧ ∀ g ∈ s.granted, g.job.key = g'.job.key → g.lease ∉ s.recorded →
      g.now + leaseSeconds ≤ g'.now := by
  have hsame : ¬ s.granted = s.granted ++ [g'] := by simp
  simp only [step] at hgrant
  split at hgrant
  · rename_i now hw
    split at hgrant
    · exact absurd hgrant hsame
    · exact absurd hgrant hsame
    · exact absurd hgrant hsame
    · rename_i job row hfind
      have hg' : g' = ⟨w, s.nextLease, now, job, row⟩ := by
        simpa using (List.append_cancel_left hgrant).symm
      subst hg'
      obtain hc | ⟨job', hmem, hdue, -, -, hc⟩ := findClaim_picked hfind
      · cases hc
      obtain ⟨hc, -⟩ | ⟨row', hc, hel⟩ := hc
      · cases hc
      cases hc
      refine ⟨eligible_mem hel, fun g hg hk hr => ?_⟩
      simp only [Job.isDue, Bool.and_eq_true, decide_eq_true_eq] at hdue
      rcases (sweep_rows now h.rows job hmem).spaced g hg hk hr with h1 | h1 | h1
      · exact h1.trans hdue.2
      · exact h1.trans hdue.1.2
      · rw [h1] at hdue; cases hdue.1.1
  · exact absurd hgrant hsame

/-- a recording step clears a device token only where the sending identity is the one the lease was granted for -/
theorem cleared_unchanged (h : Inv s) {i : ℕ} {r r' : Registration} (hr : s.db.world.registrations[i]? = some r)
    (hr' : (step C s (.record w)).db.world.registrations[i]? = some r') (hne : r'.deviceToken ≠ r.deviceToken) :
    ∃ g d finished, s.workers w = .received g d finished ∧ g ∈ s.granted ∧ Unchanged r g.row := by
  have hself : ¬ s.db.world.registrations[i]? = some r' := by
    intro e
    rw [hr] at e
    cases e
    exact hne rfl
  simp only [step] at hr'
  split at hr'
  · rename_i g d finished hw
    split at hr'
    · exact absurd hr' hself
    · rename_i db' hrec
      obtain ⟨-, -, hworld⟩ := record_some hrec
      change db'.world.registrations[i]? = some r' at hr'
      rcases hworld with he | he
      · rw [he] at hr'
        exact absurd hr' hself
      · rw [he] at hr'
        simp only [clearDevice, List.getElem?_map, hr, Option.map_some, Option.some.injEq] at hr'
        split_ifs at hr' with hsame
        · exact ⟨g, d, finished, hw, (h.working w g (by rw [hw]; rfl)).1, sameIdentity_unchanged hsame⟩
        · exact absurd (hr' ▸ rfl) hne
  · exact absurd hr' hself

end Consequences

/-- **Lease fencing.** In every state `s` that any interleaving reaches:
- a recording step changes a row only for the worker whose lease the row stores, and no other worker works on that lease;
- leases are distinct, and each records at most one response;
- a new lease comes at least thirty seconds after every lease of the same job whose response is not recorded;
- `attempts` counts the leases granted on a job;
- a job with a recorded response has its next attempt no later than its deadline;
- a recording step clears a device token only where every sending identity field is what it was when the lease was
  granted. -/
theorem lease_fencing (C : Crates) (world : World) (ops : List Op) :
    let s := run C (St.init world) ops
    (∀ w, ∀ j ∈ s.db.outbox, ∀ j' ∈ (step C s (.record w)).db.outbox, j'.key = j.key → j' ≠ j →
      ∃ g d finished, s.workers w = .received g d finished ∧ g.job.key = j.key ∧ j.leaseId = some g.lease ∧
        ∀ w' g', (s.workers w').grant = some g' → g'.lease = g.lease → w' = w) ∧
    ((s.granted.map (·.lease)).Nodup ∧ s.recorded.Nodup) ∧
    (∀ w eligibleNow pick g', (step C s (.claim w eligibleNow pick)).granted = s.granted ++ [g'] →
      g'.row ∈ s.db.world.registrations ∧
        ∀ g ∈ s.granted, g.job.key = g'.job.key → g.lease ∉ s.recorded → g.now + 30 ≤ g'.now) ∧
    (∀ j ∈ s.db.outbox, j.attempts = (grantsOf s.granted j.key).length) ∧
    (∀ j ∈ s.db.outbox, ∀ g ∈ s.granted, g.job.key = j.key → g.lease ∈ s.recorded → j.nextAttemptAt ≤ j.expiresAt) ∧
    (∀ (w i : ℕ) (r r' : Registration), s.db.world.registrations[i]? = some r →
      (step C s (.record w)).db.world.registrations[i]? = some r' → r'.deviceToken ≠ r.deviceToken →
        ∃ g d finished, s.workers w = .received g d finished ∧ g ∈ s.granted ∧ Unchanged r g.row) := by
  intro s
  have h : Inv s := run_inv (inv_init world) ops
  refine ⟨fun w j hj j' hj' hk hne => ?_, ⟨h.lease_nodup, h.recorded_nodup⟩,
    fun w eligibleNow pick g' hgrant => grant_spaced h hgrant, fun j hj => (h.rows j hj).attempts,
    fun j hj => (h.rows j hj).bounded, fun w i r r' hr hr' hne => cleared_unchanged h hr hr' hne⟩
  obtain ⟨g, d, finished, hw, hkey, hl⟩ := recorded_by_holder h hj hj' hk hne
  exact ⟨g, d, finished, hw, hkey, hl, fun w' g' hw' he => lease_worker h (by rw [hw]; rfl) hw' he⟩

end ServerBee.Push
