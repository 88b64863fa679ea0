/-
The decisions for a client do not depend on other clients, for every limit but zero.

Sweeps are tied to the counter that all clients share, but they only remove what has expired (`Tied`), so a limiter decides
as a counter that sees one client (`decisions_eq_alone`), and such a counter admits a quota in each window
(`alone_eq_quota`). A limit of zero is the exception: the branch for an expired window does not compare with the limit.
-/
import ServerBee.RateLimits.Model
import ServerBee.Lib.Quota

namespace ServerBee.RateLimits

open ServerBee.Lib

variable {ι μ : Type} [DecidableEq ι] [DecidableEq μ]

/-! ## One client -/

section Alone

variable {window : ℤ} {max : ℕ}

theorem checkEntry_none (hmax : max ≠ 0) (now : ℤ) : checkEntry window max now none = (⟨1, now⟩, true) := by
  simp [checkEntry, hmax]

theorem checkEntry_none_zero (hwindow : 0 ≤ window) (now : ℤ) : checkEntry window 0 now none = (⟨0, now⟩, false) := by
  simp [checkEntry, hwindow]

theorem checkEntry_expired {e : RateLimitEntry} {now : ℤ} (h : e.windowStart + window < now) :
    checkEntry window max now (some e) = (⟨1, now⟩, true) := by
  have hexpired : now - e.windowStart > window := by omega
  simp [checkEntry, hexpired]

theorem checkEntry_within {e : RateLimitEntry} {now : ℤ} (h : now ≤ e.windowStart + window) :
    checkEntry window max now (some e) =
      if e.count < max then (⟨e.count + 1, e.windowStart⟩, true) else (e, false) := by
  have hwithin : ¬ now - e.windowStart > window := by omega
  by_cases hcount : e.count < max
  · simp [checkEntry, hwithin, hcount, not_le.2 hcount]
  · simp [checkEntry, hwithin, hcount, not_lt.1 hcount]

/-- a denied call leaves the entry as it is -/
theorem checkEntry_denied (hmax : max ≠ 0) {now : ℤ} {found : Option RateLimitEntry}
    (h : (checkEntry window max now found).2 = false) : some (checkEntry window max now found).1 = found := by
  cases found with
  | none =>
    rw [checkEntry_none hmax] at h
    cases h
  | some e =>
    by_cases hexpired : e.windowStart + window < now
    · rw [checkEntry_expired hexpired] at h
      cases h
    · rw [checkEntry_within (not_lt.1 hexpired)] at h ⊢
      split_ifs at h ⊢
      rfl

variable (max) in
/-- the calls in the window of an entry, and what the counter does after them -/
theorem alone_window {group : List ℤ} {start : ℤ} (hgroup : ∀ u ∈ group, u ≤ start + window) (count : ℕ) (rest : List ℤ) :
    ∃ count', alone window max (some ⟨count, start⟩) (group ++ rest) =
      ((List.range group.length).map fun i => decide (count + i < max)) ++ alone window max (some ⟨count', start⟩) rest := by
  induction group generalizing count with
  | nil => exact ⟨count, rfl⟩
  | cons u group ih =>
    have hu := hgroup u List.mem_cons_self
    have hrest : ∀ v ∈ group, v ≤ start + window := fun v hv => hgroup v (List.mem_cons_of_mem u hv)
    have hrange : ∀ k, (List.range (u :: group).length).map (fun i => decide (k + i < max)) =
        decide (k < max) :: (List.range group.length).map fun i => decide (k + 1 + i < max) := by
      intro k
      rw [List.length_cons, List.range_succ_eq_map, List.map_cons, List.map_map]
      congr 1
      apply List.map_congr_left
      intro i _
      simp only [Function.comp_apply, Nat.succ_eq_add_one, add_comm i, add_assoc]
    rw [hrange, List.cons_append, alone, checkEntry_within hu]
    by_cases hcount : count < max
    · obtain ⟨count', hcount'⟩ := ih hrest (count + 1)
      refine ⟨count', ?_⟩
      simp only [hcount, if_true, decide_true, hcount', List.cons_append]
    · obtain ⟨count', hcount'⟩ := ih hrest count
      refine ⟨count', ?_⟩
      have hfull : ∀ i, (decide (count + i < max)) = decide (count + 1 + i < max) := by
        intro i
        rw [decide_eq_decide]
        omega
      simp only [hcount, if_false, decide_false, hcount', List.cons_append]
      simp only [hfull]

/-- all calls come in the window that the first one opens -/
def Within (window : ℤ) (ts : List ℤ) : Prop := ∀ t₀ ∈ ts.head?, ∀ t ∈ ts, t ≤ t₀ + window

/-- after the end of a window the counter starts anew -/
theorem alone_expired (hmax : max ≠ 0) {e : RateLimitEntry} {ts : List ℤ} (h : ∀ t ∈ ts, e.windowStart + window < t) :
    alone window max (some e) ts = alone window max none ts := by
  cases ts with
  | nil => rfl
  | cons t ts => rw [alone, alone, checkEntry_expired (h t List.mem_cons_self), checkEntry_none hmax]

theorem alone_eq_quota (hwindow : 0 ≤ window) (hmax : max ≠ 0) {ts : List ℤ} (hsorted : ts.Pairwise (· ≤ ·)) :
    alone window max none ts = Quota.quota window max ts := by
  induction ts using Quota.grouped.induct window with
  | case1 =>
    rw [Quota.quota, Quota.grouped]
    rfl
  | case2 t ts ih =>
    obtain ⟨-, rest, hrest, -, -, -, hlater, hrestSorted⟩ := Quota.quota_split window max hwindow hsorted
    have hgroup : ∀ u ∈ ts.takeWhile fun u => decide (u ≤ t + window), u ≤ t + window := by
      intro u hu
      have hle := List.mem_takeWhile_imp hu
      exact of_decide_eq_true hle
    obtain ⟨count, hcount⟩ := alone_window max hgroup 1 rest
    have hadmitted : ∀ group : List ℤ, Quota.admitted max (t :: group) =
        true :: (List.range group.length).map fun i => decide (1 + i < max) := by
      intro group
      rw [Quota.admitted, List.length_cons, List.range_succ_eq_map, List.map_cons, List.map_map]
      congr 1
      · exact decide_eq_true (Nat.pos_of_ne_zero hmax)
      · apply List.map_congr_left
        intro i _
        simp only [Function.comp_apply, Nat.succ_eq_add_one, add_comm i]
    calc alone window max none (t :: ts)
        = true :: alone window max (some ⟨1, t⟩) ((ts.takeWhile fun u => decide (u ≤ t + window)) ++ rest) := by
          rw [hrest, List.takeWhile_append_dropWhile, alone, checkEntry_none hmax]
      _ = Quota.admitted max (t :: ts.takeWhile fun u => decide (u ≤ t + window)) ++ alone window max none rest := by
          rw [hcount, alone_expired hmax hlater, hadmitted, List.cons_append]
      _ = Quota.quota window max (t :: ts) := by
          rw [Quota.quota_cons, ← hrest, hrest, ih (hrest ▸ hrestSorted)]

variable (window) in
/-- a limit of zero admits nothing until a window has expired -/
theorem alone_zero (e : RateLimitEntry) (ts : List ℤ) :
    alone window 0 (some e) ts = List.replicate ts.length false ↔ ∀ t ∈ ts, t ≤ e.windowStart + window := by
  induction ts with
  | nil => simp [alone]
  | cons t ts ih =>
    by_cases hexpired : e.windowStart + window < t
    · rw [alone, checkEntry_expired hexpired]
      simp [List.replicate_succ, hexpired]
    · rw [alone, checkEntry_within (not_lt.1 hexpired), if_neg (Nat.not_lt_zero e.count)]
      simp only [List.length_cons, List.replicate_succ, List.cons.injEq, true_and, ih, List.forall_mem_cons,
        not_lt.1 hexpired]

theorem alone_zero_iff (hwindow : 0 ≤ window) {ts : List ℤ} :
    alone window 0 none ts = List.replicate ts.length false ↔ Within window ts := by
  cases ts with
  | nil => simp [alone, Within]
  | cons t ts =>
    have hzero := alone_zero window ⟨0, t⟩ ts
    rw [alone, checkEntry_none_zero hwindow, List.length_cons, List.replicate_succ]
    simp only [List.cons.injEq, true_and, hzero]
    simp [Within, hwindow]

theorem Within.sublist {ts ts' : List ℤ} (h : Within window ts) (hsorted : ts.Pairwise (· ≤ ·)) (hsub : ts'.Sublist ts) :
    Within window ts' := by
  intro t₀ ht₀ t ht
  cases ts with
  | nil =>
    rw [List.sublist_nil.1 hsub] at ht
    cases ht
  | cons u ts =>
    have hu : u ≤ t₀ := by
      rcases List.mem_cons.1 (hsub.mem (List.mem_of_head? ht₀)) with rfl | hmem
      · exact le_rfl
      · exact (List.pairwise_cons.1 hsorted).1 t₀ hmem
    have ht' := h u rfl t (hsub.mem ht)
    omega

theorem quota_zero (ts : List ℤ) : Quota.quota window 0 ts = List.replicate ts.length false := by
  induction ts using Quota.grouped.induct window with
  | case1 =>
    rw [Quota.quota, Quota.grouped]
    rfl
  | case2 t ts ih =>
    have hadmitted : ∀ group : List ℤ, Quota.admitted 0 group = List.replicate group.length false := by
      intro group
      simp [Quota.admitted, List.map_const']
    have hlength : ts.length = (ts.takeWhile fun u => decide (u ≤ t + window)).length +
        (ts.dropWhile fun u => decide (u ≤ t + window)).length := by
      rw [← List.length_append, List.takeWhile_append_dropWhile]
    rw [Quota.quota_cons, ih, hadmitted, ← List.replicate_add, List.length_cons, List.length_cons]
    congr 1
    omega

/-- without a denied call the other decisions are the same -/
theorem alone_eraseIdx (hmax : max ≠ 0) {ts : List ℤ} {found : Option RateLimitEntry} {i : ℕ}
    (h : (alone window max found ts)[i]? = some false) :
    alone window max found (ts.eraseIdx i) = (alone window max found ts).eraseIdx i := by
  induction ts generalizing found i with
  | nil => rfl
  | cons t ts ih =>
    cases i with
    | zero =>
      have hdenied : (checkEntry window max t found).2 = false := Option.some.inj h
      rw [alone, checkEntry_denied hmax hdenied]
      rfl
    | succ i =>
      rw [List.eraseIdx_cons_succ, alone, alone, List.eraseIdx_cons_succ, ih h]

end Alone

/-! ## Many clients -/

/-- what the map holds for a client and what the counter of this client has: the same, or an expired entry was swept -/
def Tied (window : ℤ) (later : List ℤ) (held found : Option RateLimitEntry) : Prop :=
  held = found ∨ held = none ∧ ∃ e, found = some e ∧ ∀ r ∈ later, e.windowStart + window < r

/-- no later reading is exactly one window after the start of the entry -/
def Fresh (window : ℤ) (later : List ℤ) (found : Option RateLimitEntry) : Prop :=
  ∀ e ∈ found, ∀ r ∈ later, r - e.windowStart ≠ window

/-- the calls left to a client come in its window -/
def InWindow (window : ℤ) (ts : List ℤ) : Option RateLimitEntry → Prop
  | none => Within window ts
  | some e => ∀ t ∈ ts, t ≤ e.windowStart + window

theorem Tied.mono {window : ℤ} {later later' : List ℤ} {held found : Option RateLimitEntry} (h : Tied window later held found)
    (hsub : later' ⊆ later) : Tied window later' held found := by
  rcases h with h | ⟨hheld, e, hfound, hlater⟩
  · exact Or.inl h
  · exact Or.inr ⟨hheld, e, hfound, fun r hr => hlater r (hsub hr)⟩

omit [DecidableEq ι] in
/-- a sweep removes only what has expired for good -/
theorem Tied.sweep {window sweepAge swept : ℤ} {later : List ℤ} {map : RateLimitMap ι} {ip : ι}
    {found : Option RateLimitEntry} (hage : window ≤ sweepAge) (hfresh : Fresh window (swept :: later) found)
    (hsorted : (swept :: later).Pairwise (· ≤ ·)) (h : Tied window (swept :: later) (map ip) found) :
    Tied window (swept :: later) (cleanupExpiredEntries map (swept - sweepAge) ip) found := by
  have hswept : ∀ r ∈ swept :: later, swept ≤ r := by
    intro r hr
    rcases List.mem_cons.1 hr with rfl | hr
    · exact le_rfl
    · exact (List.pairwise_cons.1 hsorted).1 r hr
  rcases h with h | ⟨hheld, e, hfound, hlater⟩
  · cases hcase : map ip with
    | none => exact Or.inl (by rw [cleanupExpiredEntries, ← h, hcase, Option.filter_none])
    | some e =>
      by_cases hkeep : e.windowStart > swept - sweepAge
      · exact Or.inl (by rw [cleanupExpiredEntries, ← h, hcase, Option.filter_some, if_pos (decide_eq_true hkeep)])
      · refine Or.inr ⟨?_, e, by rw [← h, hcase], ?_⟩
        · rw [cleanupExpiredEntries, hcase, Option.filter_some, if_neg (by simpa using hkeep)]
        · intro r hr
          have hne := hfresh e (by rw [← h, hcase]; rfl) swept List.mem_cons_self
          have hle := hswept r hr
          omega
  · refine Or.inr ⟨?_, e, hfound, hlater⟩
    rw [cleanupExpiredEntries, hheld, Option.filter_none]

/-- tied entries decide alike -/
theorem Tied.checkEntry_eq {window now : ℤ} {max : ℕ} {later : List ℤ} {ts : List ℤ} {held found : Option RateLimitEntry}
    (hlimit : max ≠ 0 ∨ InWindow window (now :: ts) found) (hnow : now ∈ later) (h : Tied window later held found) :
    checkEntry window max now held = checkEntry window max now found := by
  rcases h with rfl | ⟨rfl, e, rfl, hlater⟩
  · rfl
  · have hexpired := hlater now hnow
    rcases hlimit with hmax | hin
    · rw [checkEntry_none hmax, checkEntry_expired hexpired]
    · exact absurd (hin now List.mem_cons_self) (not_le.2 hexpired)

/-- the entry after a call is in a window that the later calls are in -/
theorem InWindow.step {window now : ℤ} (hwindow : 0 ≤ window) {ts : List ℤ} {found : Option RateLimitEntry}
    (h : InWindow window (now :: ts) found) : InWindow window ts (some (checkEntry window 0 now found).1) := by
  cases found with
  | none =>
    rw [checkEntry_none_zero hwindow]
    intro t ht
    exact h now rfl t (List.mem_cons_of_mem now ht)
  | some e =>
    have hnow := h now List.mem_cons_self
    rw [checkEntry_within hnow, if_neg (Nat.not_lt_zero e.count)]
    intro t ht
    exact h t (List.mem_cons_of_mem now ht)

theorem Fresh.step {window now : ℤ} {max : ℕ} {later : List ℤ} {found : Option RateLimitEntry}
    (hfresh : Fresh window later found) (hapart : ∀ r ∈ later, r - now ≠ window) :
    Fresh window later (some (checkEntry window max now found).1) := by
  have hstart : (checkEntry window max now found).1.windowStart = now ∨
      ∃ e, found = some e ∧ (checkEntry window max now found).1.windowStart = e.windowStart := by
    cases found with
    | none =>
      left
      unfold checkEntry
      dsimp only [Option.getD_none]
      split_ifs <;> rfl
    | some e =>
      unfold checkEntry
      dsimp only [Option.getD_some]
      split_ifs
      · exact Or.inl rfl
      · exact Or.inr ⟨e, rfl, rfl⟩
      · exact Or.inr ⟨e, rfl, rfl⟩
  intro e he r hr
  cases he
  rcases hstart with hstart | ⟨e, rfl, hstart⟩
  · rw [hstart]
    exact hapart r hr
  · rw [hstart]
    exact hfresh e rfl r hr

variable (limiters : Limiters μ) (limiter : μ) (ip : ι)

theorem decisions_cons (s : State μ ι) (c : Call μ ι) (calls : List (Call μ ι)) : decisions limiters limiter ip s (c :: calls) =
    if c.limiter = limiter ∧ c.ip = ip then (step limiters s c).2 :: decisions limiters limiter ip (step limiters s c).1 calls
    else decisions limiters limiter ip (step limiters s c).1 calls := rfl

/-- **Isolation.** The decisions for a client are those of a counter that sees only this client. -/
theorem decisions_eq_alone {calls : List (Call μ ι)} {s : State μ ι} {found : Option RateLimitEntry}
    (hsorted : (readings calls).Pairwise (· ≤ ·)) (hapart : (readings calls).Pairwise fun a b => b - a ≠ limiters.window)
    (hfresh : Fresh limiters.window (readings calls) found)
    (hlimit : limiters.max limiter ≠ 0 ∨ InWindow limiters.window (times limiter ip calls) found)
    (htied : Tied limiters.window (readings calls) (s.maps limiter ip) found) :
    decisions limiters limiter ip s calls =
      alone limiters.window (limiters.max limiter) found (times limiter ip calls) := by
  induction calls generalizing s found with
  | nil => rfl
  | cons c calls ih =>
    have hreadings : readings (c :: calls) = c.swept :: c.now :: readings calls := rfl
    rw [hreadings] at hsorted hapart hfresh htied
    have hsorted' := (List.pairwise_cons.1 (List.pairwise_cons.1 hsorted).2).2
    obtain ⟨hnow, hapart'⟩ := List.pairwise_cons.1 (List.pairwise_cons.1 hapart).2
    have hsub : readings calls ⊆ c.swept :: c.now :: readings calls := by
      intro r hr
      exact List.mem_cons_of_mem _ (List.mem_cons_of_mem _ hr)
    have hfresh' : Fresh limiters.window (readings calls) found := fun e he r hr => hfresh e he r (hsub hr)
    by_cases hlimiter : c.limiter = limiter
    · subst hlimiter
      -- the entry that the call finds, after a sweep or without one
      obtain ⟨map, hmap, hstep⟩ : ∃ map : RateLimitMap ι,
          Tied limiters.window (c.swept :: c.now :: readings calls) (map ip) found ∧
          step limiters s c = (⟨(s.counter + 1) % 2 ^ 64, Function.update s.maps c.limiter (Function.update map c.ip
            (some (checkEntry limiters.window (limiters.max c.limiter) c.now (map c.ip)).1))⟩,
            (checkEntry limiters.window (limiters.max c.limiter) c.now (map c.ip)).2) := by
        by_cases hcount : s.counter % 100 = 0
        · refine ⟨_, htied.sweep limiters.window_le hfresh hsorted, ?_⟩
          simp only [step, check, hcount, if_true]
        · refine ⟨_, htied, ?_⟩
          simp only [step, check, hcount, if_false]
      by_cases hip : c.ip = ip
      · have htimes : times c.limiter ip (c :: calls) = c.now :: times c.limiter ip calls := by
          simp [times, hip]
        rw [htimes] at hlimit ⊢
        have hadmit := hmap.checkEntry_eq hlimit (List.mem_cons_of_mem _ List.mem_cons_self)
        rw [decisions_cons, if_pos ⟨rfl, hip⟩, alone, hstep, hip, hadmit]
        congr 1
        refine ih hsorted' hapart' (hfresh'.step hnow) ?_ (Or.inl ?_)
        · rcases hlimit with hmax | hin
          · exact Or.inl hmax
          · by_cases hmax : limiters.max c.limiter = 0
            · right
              rw [hmax]
              exact hin.step limiters.window_nonneg
            · exact Or.inl hmax
        · simp only [Function.update_self]
      · have htimes : times c.limiter ip (c :: calls) = times c.limiter ip calls := by
          simp [times, hip]
        rw [htimes] at hlimit ⊢
        rw [decisions_cons, if_neg fun h => hip h.2, hstep]
        refine ih hsorted' hapart' hfresh' hlimit ?_
        simp only [Function.update_self, Function.update_of_ne (Ne.symm hip)]
        exact hmap.mono hsub
    · have htimes : times limiter ip (c :: calls) = times limiter ip calls := by
        simp [times, hlimiter]
      rw [htimes] at hlimit ⊢
      rw [decisions_cons, if_neg fun h => hlimiter h.1]
      refine ih hsorted' hapart' hfresh' hlimit ?_
      simp only [step, Function.update_of_ne (Ne.symm hlimiter)]
      exact htied.mono hsub

/-! ## The limits -/

/-- a clock that does not go back, and no two readings exactly one window apart -/
structure History (window : ℤ) (μ ι : Type) where
  calls : List (Call μ ι)
  sorted : (readings calls).Pairwise (· ≤ ·)
  apart : (readings calls).Pairwise fun a b => b - a ≠ window

/-- what exact limiting means for a client -/
structure Exact (counter : ℕ) (calls : List (Call μ ι)) : Prop where
  /-- the decisions of a counter for this client alone -/
  isolated : decisions limiters limiter ip (.empty counter) calls =
    alone limiters.window (limiters.max limiter) none (times limiter ip calls)
  /-- in each window the first calls are allowed, up to the limit -/
  quota : decisions limiters limiter ip (.empty counter) calls =
    Quota.quota limiters.window (limiters.max limiter) (times limiter ip calls)
  /-- without a denied call the others are decided in the same way -/
  undelayed : ∀ i, (decisions limiters limiter ip (.empty counter) calls)[i]? = some false →
    alone limiters.window (limiters.max limiter) none ((times limiter ip calls).eraseIdx i) =
      (decisions limiters limiter ip (.empty counter) calls).eraseIdx i
  twice : ∀ x, Quota.admittedIn x (x + limiters.window)
    ((times limiter ip calls).zip (decisions limiters limiter ip (.empty counter) calls)) ≤ 2 * limiters.max limiter

theorem times_sublist (calls : List (Call μ ι)) :
    (times limiter ip calls).Sublist (readings calls) := by
  induction calls with
  | nil => exact List.Sublist.slnil
  | cons c calls ih =>
    have hreadings : readings (c :: calls) = c.swept :: c.now :: readings calls := rfl
    by_cases hc : c.limiter = limiter ∧ c.ip = ip
    · have htimes : times limiter ip (c :: calls) = c.now :: times limiter ip calls := by
        simp [times, hc]
      rw [htimes, hreadings]
      exact (ih.cons_cons c.now).cons c.swept
    · have htimes : times limiter ip (c :: calls) = times limiter ip calls := by
        simp [times, hc]
      rw [htimes, hreadings]
      exact (ih.cons c.now).cons c.swept

theorem exact_iff (counter : ℕ) (h : History limiters.window μ ι) :
    Exact limiters limiter ip counter h.calls ↔
      limiters.max limiter ≠ 0 ∨ Within limiters.window (times limiter ip h.calls) := by
  have hsorted := h.sorted.sublist (times_sublist limiter ip h.calls)
  constructor
  · intro hexact
    by_cases hmax : limiters.max limiter = 0
    · right
      have hquota := hexact.quota
      rw [hexact.isolated, hmax, quota_zero] at hquota
      exact (alone_zero_iff limiters.window_nonneg).1 hquota
    · exact Or.inl hmax
  · intro hlimit
    have hisolated : decisions limiters limiter ip (.empty counter) h.calls =
        alone limiters.window (limiters.max limiter) none (times limiter ip h.calls) :=
      decisions_eq_alone limiters limiter ip h.sorted h.apart (fun e he => nomatch he) hlimit (Or.inl rfl)
    have hquota : decisions limiters limiter ip (.empty counter) h.calls =
        Quota.quota limiters.window (limiters.max limiter) (times limiter ip h.calls) := by
      rw [hisolated]
      by_cases hmax : limiters.max limiter = 0
      · rw [hmax, quota_zero, alone_zero_iff limiters.window_nonneg]
        exact hlimit.resolve_left fun hne => hne hmax
      · exact alone_eq_quota limiters.window_nonneg hmax hsorted
    refine ⟨hisolated, hquota, ?_, ?_⟩
    · intro i hi
      rw [hisolated] at hi ⊢
      by_cases hmax : limiters.max limiter = 0
      · have hwithin := hlimit.resolve_left fun hne => hne hmax
        have hsub := List.eraseIdx_sublist (times limiter ip h.calls) i
        rw [hmax, (alone_zero_iff limiters.window_nonneg).2 hwithin,
          (alone_zero_iff limiters.window_nonneg).2 (hwithin.sublist hsorted hsub)]
        refine (List.eq_replicate_iff.2 ⟨?_, ?_⟩).symm
        · rw [List.length_eraseIdx, List.length_eraseIdx, List.length_replicate]
        · intro b hb
          exact List.eq_of_mem_replicate (List.mem_of_mem_eraseIdx hb)
      · exact alone_eraseIdx hmax hi
    · intro x
      rw [hquota]
      exact Quota.admitted_le limiters.window _ limiters.window_nonneg hsorted x

/-- **Rate limits.** The limiters for logins and registrations are exact for a client exactly if the limit is not zero, or all
calls of the client come within one window of its first call. The limiter of the public status page is always exact. -/
theorem rate_limits_exact (loginMax registerMax counter : ℕ) :
    (∀ (h : History (15 * 60 * second) AuthLimiter ι) (limiter : AuthLimiter) (ip : ι),
      Exact (authLimiters loginMax registerMax) limiter ip counter h.calls ↔
        (authLimiters loginMax registerMax).max limiter ≠ 0 ∨ Within (15 * 60 * second) (times limiter ip h.calls)) ∧
    ∀ (h : History publicStatusWindow Unit ι) (ip : ι), Exact publicLimiter () ip counter h.calls := by
  refine ⟨?_, ?_⟩
  · intro h limiter ip
    exact exact_iff (authLimiters loginMax registerMax) limiter ip counter h
  · intro h ip
    have hmax : publicLimiter.max () ≠ 0 := by decide
    exact (exact_iff publicLimiter () ip counter h).2 (Or.inl hmax)

/-- with a limit of zero, a call 901 seconds after a denied one is allowed, and denied if the call of another client swept the
map before it -/
theorem zero_limit_admits :
    decisions (authLimiters 0 0) .login "203.0.113.5" (.empty 1)
      [⟨.login, "203.0.113.5", 0, 0⟩, ⟨.login, "203.0.113.5", 901 * second, 901 * second⟩] = [false, true] ∧
    decisions (authLimiters 0 0) .login "203.0.113.5" (.empty 99)
      [⟨.login, "203.0.113.5", 0, 0⟩, ⟨.login, "198.51.100.9", 901 * second, 901 * second⟩,
        ⟨.login, "203.0.113.5", 902 * second, 902 * second⟩] = [false, false] ∧
    alone (15 * 60 * second) 0 none [0, 902 * second] = [false, true] := by
  decide

end ServerBee.RateLimits
