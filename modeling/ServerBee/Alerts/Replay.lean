/-
Progress of the event-alert replay (`replay` of `service/alert_event_intents.rs`).

A pass reads the first hundred pending intents and leaves a dimension alone after its first failure in the pass. Here
some dimensions fail for ever and all others succeed. A dimension's intents are then consumed in id order at every moment
of every pass; but the intents of failing dimensions stay in front, and a hundred of them fill the batch.

- `foldl_replayItem`: what a part of a pass consumes.
- `replay_progress`: everything else is consumed exactly if nothing waits behind a hundred intents of failing dimensions.
-/
import ServerBee.Alerts.Intents

namespace ServerBee.Alerts

open ServerBee.Lib

variable {J : Type}

/-! ## Passes -/

/-- after `n` passes; pass `n` makes the calls `calls n` -/
def replays (calls : ℕ → Intent → Call J) (p : Progress J) : ℕ → Progress J
  | 0 => p
  | n + 1 => replay (calls n) (replays calls p n).db (replays calls p n).cache

/-- after `n` passes and the first `k` intents of the next one -/
def replayMoment (calls : ℕ → Intent → Call J) (p : Progress J) (n k : ℕ) : Progress J :=
  ((pendingBatch (replays calls p n).db).take k).foldl (fun q item => replayItem (calls n item) q item)
    ⟨(replays calls p n).db, (replays calls p n).cache, []⟩

/-- admission of a pending intent fails for the dimensions that `fails` selects, and succeeds for the others -/
structure FailsOn (fails : Dimension → Bool) (calls : ℕ → Intent → Call J) : Prop where
  fail : ∀ n item, fails item.dimension = true → ∀ db : EventDb J, item ∈ db.intents →
    replayOne (calls n item) db item.id = none
  ok : ∀ n item, fails item.dimension = false → ∀ db : EventDb J, item ∈ db.intents →
    (replayOne (calls n item) db item.id).isSome = true

section Passes

variable {fails : Dimension → Bool} {calls : ℕ → Intent → Call J}

/-- going through some intents consumes those of the dimensions that do not fail -/
theorem foldl_replayItem (h : FailsOn fails calls) (n : ℕ) {items : List Intent} {p : Progress J}
    (hsorted : items.Pairwise fun i j => i.id < j.id) (hpending : ∀ item ∈ items, item ∈ p.db.intents)
    (hfailed : ∀ d ∈ p.failed, fails d = true) {i : Intent} :
    i ∈ (items.foldl (fun q item => replayItem (calls n item) q item) p).db.intents ↔
      i ∈ p.db.intents ∧ ∀ item ∈ items, fails item.dimension = false → i.id ≠ item.id := by
  induction items generalizing p with
  | nil => simp
  | cons item items ih =>
    obtain ⟨hfirst, hsorted⟩ := List.pairwise_cons.1 hsorted
    have hitem := hpending item List.mem_cons_self
    rw [List.foldl_cons]
    cases hf : fails item.dimension with
    | true =>
      have hdb : (replayItem (calls n item) p item).db = p.db := by
        unfold replayItem
        rw [h.fail n item hf p.db hitem]
        split_ifs <;> rfl
      have hfailed' : ∀ d ∈ (replayItem (calls n item) p item).failed, fails d = true := by
        unfold replayItem
        rw [h.fail n item hf p.db hitem]
        split_ifs
        · exact hfailed
        · rintro d (_ | ⟨_, hd⟩)
          · exact hf
          · exact hfailed d hd
      rw [ih hsorted (fun j hj => by rw [hdb]; exact hpending j (List.mem_cons_of_mem _ hj)) hfailed', hdb]
      simp [hf]
    | false =>
      obtain ⟨r, hr⟩ := Option.isSome_iff_exists.1 (h.ok n item hf p.db hitem)
      have hnot : item.dimension ∉ p.failed := fun hd => by
        rw [hfailed _ hd] at hf
        cases hf
      have hstep : (replayItem (calls n item) p item).db = r.db ∧
          (replayItem (calls n item) p item).failed = p.failed := by
        unfold replayItem
        rw [if_neg hnot, hr]
        exact ⟨rfl, rfl⟩
      have hpending' : ∀ j ∈ items, j ∈ (replayItem (calls n item) p item).db.intents := by
        intro j hj
        rw [hstep.1, replayOne_intents hr]
        exact ⟨hpending j (List.mem_cons_of_mem _ hj), (ne_of_lt (hfirst j hj)).symm⟩
      rw [ih hsorted hpending' (by rw [hstep.2]; exact hfailed), hstep.1, replayOne_intents hr]
      simp [hf, and_assoc]

/-- the pending intents within a pass -/
theorem mem_replayMoment (h : FailsOn fails calls) {p : Progress J} {n k : ℕ} {i : Intent} :
    i ∈ (replayMoment calls p n k).db.intents ↔ i ∈ (replays calls p n).db.intents ∧
      (i ∈ (pendingBatch (replays calls p n).db).take k → fails i.dimension = true) := by
  rw [replayMoment]
  generalize replays calls p n = q
  have hbatch : ∀ item ∈ (pendingBatch q.db).take k, item ∈ q.db.intents := fun item hitem =>
    pendingBatch_subset (List.mem_of_mem_take hitem)
  have hfold := foldl_replayItem h n (p := ⟨q.db, q.cache, []⟩) (i := i)
    ((pendingBatch_sorted q.db).sublist (List.take_sublist k _)) hbatch fun d hd => by cases hd
  rw [hfold]
  refine and_congr_right fun hi => ⟨fun hall hin => ?_, fun hall item hitem hf hid => ?_⟩
  · by_contra hne
    exact hall i hin (by simpa using hne) rfl
  · obtain rfl := Table.mem_inj hi (hbatch item hitem) hid
    rw [hall hitem] at hf
    cases hf

theorem mem_replays_succ (h : FailsOn fails calls) {p : Progress J} {n : ℕ} {i : Intent} :
    i ∈ (replays calls p (n + 1)).db.intents ↔ i ∈ (replays calls p n).db.intents ∧
      (i ∈ pendingBatch (replays calls p n).db → fails i.dimension = true) := by
  have hall : (pendingBatch (replays calls p n).db).take 100 = pendingBatch (replays calls p n).db :=
    List.take_of_length_le (List.length_take_le _ _)
  have hm := mem_replayMoment (k := 100) h (p := p) (n := n) (i := i)
  rw [replayMoment, hall] at hm
  exact hm

theorem replays_subset (h : FailsOn fails calls) {p : Progress J} (n : ℕ) {i : Intent}
    (hi : i ∈ (replays calls p n).db.intents) : i ∈ p.db.intents := by
  induction n with
  | zero => exact hi
  | succ n ih => exact ih ((mem_replays_succ h).1 hi).1

/-- failing dimensions keep their intents -/
theorem replays_failing (h : FailsOn fails calls) {p : Progress J} (n : ℕ) {i : Intent} (hi : i ∈ p.db.intents)
    (hf : fails i.dimension = true) : i ∈ (replays calls p n).db.intents := by
  induction n with
  | zero => exact hi
  | succ n ih => exact (mem_replays_succ h).2 ⟨ih, fun _ => hf⟩

/-! ## Order -/

/-- an intent is pending at least as long as the older ones of its dimension -/
def InOrder (initial current : Table Intent.id) : Prop :=
  ∀ i ∈ initial, ∀ j ∈ initial, i.dimension = j.dimension → i.id < j.id → i ∈ current → j ∈ current

theorem replays_inOrder (h : FailsOn fails calls) (p : Progress J) (n : ℕ) :
    InOrder p.db.intents (replays calls p n).db.intents := by
  induction n with
  | zero => exact fun i _ j hj _ _ _ => hj
  | succ n ih =>
    intro i hi j hj hd hlt hin
    obtain ⟨hin, hbatch⟩ := (mem_replays_succ h).1 hin
    refine (mem_replays_succ h).2 ⟨ih i hi j hj hd hlt hin, fun hjb => ?_⟩
    rw [← hd]
    exact hbatch (pendingBatch_closed hjb hin hlt)

theorem replayMoment_inOrder (h : FailsOn fails calls) (p : Progress J) (n k : ℕ) :
    InOrder p.db.intents (replayMoment calls p n k).db.intents := by
  intro i hi j hj hd hlt hin
  obtain ⟨hin, htake⟩ := (mem_replayMoment h).1 hin
  refine (mem_replayMoment h).2 ⟨replays_inOrder h p n i hi j hj hd hlt hin, fun hjt => ?_⟩
  rw [← hd]
  refine htake (mem_take_of_lt (pendingBatch_sorted _) hjt ?_ hlt)
  exact pendingBatch_closed (List.mem_of_mem_take hjt) hin hlt

/-! ## Progress -/

/-- the intents of failing dimensions before `i` -/
def failingBefore (fails : Dimension → Bool) (db : EventDb J) (i : Intent) : ℕ :=
  db.intents.rows.countP fun j => fails j.dimension && decide (j.id < i.id)

/-- the intents that are to be consumed -/
def remaining (fails : Dimension → Bool) (db : EventDb J) : ℕ := db.intents.rows.countP fun j => !fails j.dimension

/-- the oldest of the others gets into the batch, unless it waits behind a hundred failing ones -/
theorem remaining_lt (h : FailsOn fails calls) {p : Progress J}
    (hshort : ∀ i ∈ p.db.intents, fails i.dimension = false → failingBefore fails p.db i < 100) {n : ℕ}
    (hpos : 0 < remaining fails (replays calls p n).db) :
    remaining fails (replays calls p (n + 1)).db < remaining fails (replays calls p n).db := by
  set q := replays calls p n with hq
  have hne : ((byId q.db.intents).filter fun i => !fails i.dimension) ≠ [] := by
    obtain ⟨i, hi, hf⟩ := List.countP_pos_iff.1 hpos
    exact List.ne_nil_of_mem (List.mem_filter.2 ⟨mem_byId.2 hi, hf⟩)
  obtain ⟨i, rest, hfirst⟩ := List.exists_cons_of_ne_nil hne
  obtain ⟨hi, hf⟩ := List.mem_filter.1 (hfirst ▸ List.mem_cons_self : i ∈ (byId q.db.intents).filter _)
  have hi : i ∈ q.db.intents := mem_byId.1 hi
  have hf : fails i.dimension = false := by simpa using hf
  -- whatever is older than `i` belongs to a failing dimension
  have holder : ∀ j ∈ q.db.intents, j.id < i.id → fails j.dimension = true := by
    intro j hj hlt
    by_contra hne
    have hsorted := (byId_sorted q.db.intents).sublist (List.filter_sublist (p := fun i => !fails i.dimension))
    have hmem : j ∈ (byId q.db.intents).filter fun i => !fails i.dimension :=
      List.mem_filter.2 ⟨mem_byId.2 hj, by simpa using hne⟩
    rw [hfirst] at hsorted hmem
    rcases List.mem_cons.1 hmem with rfl | hmem
    · exact lt_irrefl _ hlt
    · exact absurd (List.rel_of_pairwise_cons hsorted hmem) (not_lt_of_gt hlt)
  have hcount : q.db.intents.rows.countP (fun j => decide (j.id < i.id)) ≤ failingBefore fails p.db i :=
    Table.countP_le fun j hj hlt =>
      ⟨replays_subset h n hj, by simpa using ⟨holder j hj (of_decide_eq_true hlt), of_decide_eq_true hlt⟩⟩
  have hbatch : i ∈ pendingBatch q.db :=
    mem_pendingBatch.2 ⟨hi, hcount.trans_lt (hshort i (replays_subset h n hi) hf)⟩
  refine Table.countP_lt (r := i) (fun j hj hjf => ⟨((mem_replays_succ h).1 hj).1, hjf⟩) hi (by simp [hf]) fun hin => ?_
  rw [((mem_replays_succ h).1 hin).2 hbatch] at hf
  cases hf

theorem exists_remaining_zero (h : FailsOn fails calls) {p : Progress J}
    (hshort : ∀ i ∈ p.db.intents, fails i.dimension = false → failingBefore fails p.db i < 100) :
    ∃ n, remaining fails (replays calls p n).db = 0 := by
  by_contra hne
  push Not at hne
  have hdrop : ∀ n, remaining fails (replays calls p n).db + n ≤ remaining fails p.db := by
    intro n
    induction n with
    | zero => exact le_rfl
    | succ n ih =>
      have := remaining_lt h hshort (Nat.pos_of_ne_zero (hne n))
      omega
  have := hdrop (remaining fails p.db + 1)
  omega

/-- behind a hundred intents of failing dimensions nothing is ever read -/
theorem replays_starved (h : FailsOn fails calls) {p : Progress J} {i : Intent} (hi : i ∈ p.db.intents)
    (hmany : 100 ≤ failingBefore fails p.db i) (n : ℕ) : i ∈ (replays calls p n).db.intents := by
  induction n with
  | zero => exact hi
  | succ n ih =>
    refine (mem_replays_succ h).2 ⟨ih, fun hbatch => ?_⟩
    have hcount : failingBefore fails p.db i ≤
        (replays calls p n).db.intents.rows.countP fun j => decide (j.id < i.id) := by
      refine Table.countP_le fun j hj hboth => ?_
      rw [Bool.and_eq_true] at hboth
      exact ⟨replays_failing h n hj hboth.1, hboth.2⟩
    have := (mem_pendingBatch.1 hbatch).2
    omega

end Passes

/-- **Failing dimensions and the others.** At every moment the intents of each dimension have been consumed in id order;
and repeated passes consume all intents of the dimensions that do not fail exactly if none of these has a hundred intents
of failing dimensions in front of it. -/
theorem replay_progress {fails : Dimension → Bool} {calls : ℕ → Intent → Call J} (h : FailsOn fails calls)
    (p : Progress J) :
    ((∃ n, ∀ i ∈ (replays calls p n).db.intents, fails i.dimension = true) ∧
        ∀ n k, InOrder p.db.intents (replayMoment calls p n k).db.intents) ↔
      ∀ i ∈ p.db.intents, fails i.dimension = false → failingBefore fails p.db i < 100 := by
  constructor
  · rintro ⟨⟨n, hn⟩, -⟩ i hi hf
    by_contra hmany
    have hin := replays_starved h hi (not_lt.1 hmany) n
    rw [hn i hin] at hf
    cases hf
  · intro hshort
    obtain ⟨n, hn⟩ := exists_remaining_zero h hshort
    refine ⟨⟨n, fun i hi => ?_⟩, replayMoment_inOrder h p⟩
    simpa using List.countP_eq_zero.1 hn i hi

/-! ## A queue of a hundred and one -/

/-- calls that fail to commit for the failing dimensions -/
def commitsUnless (fails : Dimension → Bool) (_ : ℕ) (item : Intent) : Call J :=
  ⟨fun _ _ _ jobs => some jobs, !fails item.dimension⟩

theorem failsOn_commitsUnless (fails : Dimension → Bool) : FailsOn (J := J) fails (commitsUnless fails) where
  fail _ item hf db _ := by simp [replayOne, commitsUnless, hf]
  ok _ item hf db hin := by
    simp only [replayOne, commitsUnless, hf, Table.get_key hin, Bool.not_false, Bool.not_true, Bool.false_eq_true,
      if_false]
    split
    · rfl
    · cases hget : db.states.get item.state.key with
      | some row => simp [admitIntent, hget, storeState]
      | none =>
        have hfree : db.states.insert item.state ≠ none := fun hnone => by
          rw [Table.insert_eq_none, hget] at hnone
          cases hnone
        obtain ⟨states, hins⟩ := Option.ne_none_iff_exists'.1 hfree
        simp [admitIntent, hget, storeState, hins]

/-- a hundred events of rule 1, then one of rule 2 -/
def longQueue : Table Intent.id where
  rows := (List.range 101).map fun k => ⟨k, if k = 100 then 2 else 1, 1, "ip_changed", "always", 0, 0, 1, true⟩
  unique := by decide +kernel

def longProgress : Progress Unit := ⟨⟨∅, ∅, [], ∅, longQueue, 101, ()⟩, fun _ => none, []⟩

/-- rule 1 cannot be admitted -/
def firstRule (d : Dimension) : Bool := d.1 == 1

/-- **One more intent than a batch holds.** The event of rule 2 is never consumed. -/
theorem starved_behind_hundred :
    ¬ ∃ n, ∀ i ∈ (replays (commitsUnless firstRule) longProgress n).db.intents, firstRule i.dimension = true := by
  rintro ⟨n, hn⟩
  have hin : (⟨100, 2, 1, "ip_changed", "always", 0, 0, 1, true⟩ : Intent) ∈ longProgress.db.intents :=
    List.mem_map.2 ⟨100, by simp, rfl⟩
  exact absurd (hn _ (replays_starved (failsOn_commitsUnless firstRule) hin (by decide +kernel) n)) (by decide)

/-- two dimensions -/
theorem replay_progress_pair :
    let p : Progress Unit := ⟨⟨∅, ∅, [], ∅, ⟨longQueue.rows.drop 99, by decide +kernel⟩, 101, ()⟩, fun _ => none, []⟩
    ((∃ n, ∀ i ∈ (replays (commitsUnless firstRule) p n).db.intents, firstRule i.dimension = true) ∧
        ∀ n k, InOrder p.db.intents (replayMoment (commitsUnless firstRule) p n k).db.intents) ↔
      ∀ i ∈ p.db.intents, firstRule i.dimension = false → failingBefore firstRule p.db i < 100 :=
  replay_progress (failsOn_commitsUnless firstRule) _


end ServerBee.Alerts
