/-
Keyset scans: the rows behind a cursor in the order of their keys, up to a limit.

A page is a scan together with the cursor of the next page, and a walk follows these cursors over a table that may change in
between. A turn is a scan that starts over where nothing is behind its cursor; a row that stays is reached by a bounded number
of turns, however many of the others come and go.
-/
import Mathlib.Data.Finset.Card
import Mathlib.Data.List.Induction
import Mathlib.Data.List.Nodup
import Mathlib.Data.List.Sort

namespace ServerBee.Lib.Keyset

variable {ρ κ : Type} [LinearOrder κ] (key : ρ → κ)

def behind (cursor : Option κ) (row : ρ) : Bool := cursor.all fun c => decide (c < key row)

def sorted (rows : List ρ) : List ρ := rows.insertionSort fun r r' => key r ≤ key r'

def scan (rows : List ρ) (cursor : Option κ) (limit : ℕ) : List ρ :=
  (sorted key (rows.filter (behind key cursor))).take limit

variable {key} {rows : List ρ} {cursor : Option κ} {limit : ℕ} {r : ρ}

theorem behind_iff : behind key cursor r = true ↔ ∀ c ∈ cursor, c < key r := by
  cases cursor <;> simp [behind]

theorem pairwise_sorted (h : (rows.map key).Nodup) : (sorted key rows).Pairwise fun r r' => key r < key r' := by
  have hle : (sorted key rows).Pairwise fun r r' => key r ≤ key r' := List.pairwise_insertionSort _ rows
  have hne : ((sorted key rows).map key).Nodup := ((List.perm_insertionSort _ rows).map key).nodup_iff.2 h
  have hne : (sorted key rows).Pairwise fun r r' => key r ≠ key r' := List.pairwise_map.1 hne
  exact (hle.and hne).imp fun h => lt_of_le_of_ne h.1 h.2

theorem pairwise_behind (h : (rows.map key).Nodup) :
    (sorted key (rows.filter (behind key cursor))).Pairwise fun r r' => key r < key r' :=
  pairwise_sorted (h.sublist (List.filter_sublist.map key))

theorem pairwise_scan (h : (rows.map key).Nodup) : (scan key rows cursor limit).Pairwise fun r r' => key r < key r' :=
  (pairwise_behind h).sublist (List.take_sublist _ _)

theorem mem_of_mem_scan (h : r ∈ scan key rows cursor limit) : r ∈ rows ∧ ∀ c ∈ cursor, c < key r := by
  have hm := List.mem_filter.1 ((List.mem_insertionSort _).1 (List.mem_of_mem_take h))
  exact ⟨hm.1, behind_iff.1 hm.2⟩

/-- a row behind the cursor that a scan does not have comes after a full scan -/
theorem scan_reaches (limit : ℕ) (h : (rows.map key).Nodup) (hr : r ∈ rows) (hc : ∀ c ∈ cursor, c < key r) :
    r ∈ scan key rows cursor limit ∨
      (scan key rows cursor limit).length = limit ∧ ∀ s ∈ scan key rows cursor limit, key s < key r := by
  have hm : r ∈ sorted key (rows.filter (behind key cursor)) :=
    (List.mem_insertionSort _).2 (List.mem_filter.2 ⟨hr, behind_iff.2 hc⟩)
  have hp : (sorted key (rows.filter (behind key cursor))).Pairwise fun r r' => key r < key r' := pairwise_behind h
  rw [← List.take_append_drop limit (sorted key (rows.filter (behind key cursor)))] at hm hp
  rcases List.mem_append.1 hm with hm | hm
  · exact .inl hm
  · refine .inr ⟨?_, fun s hs => (List.pairwise_append.1 hp).2.2 s hs r hm⟩
    have hlen : limit < (sorted key (rows.filter (behind key cursor))).length := by
      by_contra hle
      rw [List.drop_of_length_le (Nat.le_of_not_lt hle)] at hm
      cases hm
    simp [scan, Nat.min_eq_left (Nat.le_of_lt hlen)]

/-! ## Pages -/

variable (key)

/-- one row more than the limit tells that there is a next page -/
def page (rows : List ρ) (cursor : Option κ) (limit : ℕ) : List ρ × Option κ :=
  let got := scan key rows cursor (limit + 1)
  if limit < got.length then (got.take limit, (got.take limit).getLast?.map key) else (got, none)

/-- the rows so far, and the request that is next if there is one -/
structure Walk (ρ κ : Type) where
  items : List ρ
  next : Option (Option κ)

def Walk.start : Walk ρ κ := ⟨[], some none⟩

/-- the request meets the table as it is then -/
def Walk.step (limit : ℕ) (w : Walk ρ κ) (rows : List ρ) : Walk ρ κ :=
  w.next.elim w fun cursor =>
    let got := page key rows cursor limit
    ⟨w.items ++ got.1, got.2.map some⟩

def walk (limit : ℕ) (tables : List (List ρ)) : Walk ρ κ := tables.foldl (Walk.step key limit) .start

variable {key}

theorem page_cases (key : ρ → κ) (rows : List ρ) (cursor : Option κ) (limit : ℕ) :
    (page key rows cursor limit).1 = scan key rows cursor limit ∧ (page key rows cursor limit).1.length = limit ∧
      (page key rows cursor limit).2 = (scan key rows cursor limit).getLast?.map key ∨
    (page key rows cursor limit).1 = scan key rows cursor (limit + 1) ∧ (page key rows cursor limit).1.length ≤ limit ∧
      (page key rows cursor limit).2 = none := by
  have htake : (scan key rows cursor (limit + 1)).take limit = scan key rows cursor limit := by
    simp [scan, List.take_take]
  unfold page
  by_cases h : limit < (scan key rows cursor (limit + 1)).length
  · left
    simp only [h, if_true, htake]
    refine ⟨trivial, ?_, trivial⟩
    rw [← htake, List.length_take]
    omega
  · right
    simp only [h, if_false]
    exact ⟨trivial, Nat.le_of_not_lt h, trivial⟩

/-- what a walk has after the requests that met `tables` -/
structure Walk.Covers (key : ρ → κ) (limit : ℕ) (tables : List (List ρ)) (w : Walk ρ κ) : Prop where
  sorted : w.items.Pairwise fun r r' => key r < key r'
  found : ∀ r ∈ w.items, ∃ rows ∈ tables, r ∈ rows
  first : w.next = some none → w.items = []
  last : ∀ c, w.next = some (some c) → ∃ r ∈ w.items, key r = c
  below : ∀ c, w.next = some (some c) → ∀ r ∈ w.items, key r ≤ c
  covered : ∀ c, w.next = some (some c) → ∀ r, (∀ rows ∈ tables, r ∈ rows) → key r ≤ c → r ∈ w.items
  ended : w.next = none → ∀ r, (∀ rows ∈ tables, r ∈ rows) → r ∈ w.items
  full : w.next ≠ none → w.items.length = tables.length * limit

theorem Walk.covers_start (limit : ℕ) : (Walk.start : Walk ρ κ).Covers key limit [] where
  sorted := .nil
  found := by simp [Walk.start]
  first := fun _ => rfl
  last := by simp [Walk.start]
  below := by simp [Walk.start]
  covered := by simp [Walk.start]
  ended := by simp [Walk.start]
  full := by simp [Walk.start]

/-- the items so far are not behind the cursor of the next request -/
theorem Walk.Covers.items_lt {tables : List (List ρ)} {w : Walk ρ κ} (h : w.Covers key limit tables)
    (hn : w.next = some cursor) {s : ρ} (hs : s ∈ w.items) (hr : ∀ c ∈ cursor, c < key r) : key s < key r := by
  cases cursor with
  | none =>
    rw [h.first hn] at hs
    cases hs
  | some c => exact lt_of_le_of_lt (h.below c hn s hs) (hr c rfl)

theorem Walk.Covers.append {tables : List (List ρ)} {w : Walk ρ κ} (h : w.Covers key limit tables)
    (hn : w.next = some cursor) (hk : (rows.map key).Nodup) (n : ℕ) :
    (w.items ++ scan key rows cursor n).Pairwise (fun r r' => key r < key r') ∧
      ∀ r ∈ w.items ++ scan key rows cursor n, ∃ t ∈ tables ++ [rows], r ∈ t := by
  refine ⟨List.pairwise_append.2 ⟨h.sorted, pairwise_scan hk, fun s hs r hr => ?_⟩, fun r hr => ?_⟩
  · exact h.items_lt hn hs (mem_of_mem_scan hr).2
  · rcases List.mem_append.1 hr with hr | hr
    · obtain ⟨t, ht, hm⟩ := h.found r hr
      exact ⟨t, List.mem_append_left _ ht, hm⟩
    · exact ⟨rows, List.mem_append_right _ (List.mem_singleton.2 rfl), (mem_of_mem_scan hr).1⟩

/-- a row that stays is among the items, or is behind the cursor of the next request -/
theorem Walk.Covers.had_or_behind {tables : List (List ρ)} {w : Walk ρ κ} (h : w.Covers key limit tables)
    (hn : w.next = some cursor) (hr : ∀ t ∈ tables, r ∈ t) : r ∈ w.items ∨ ∀ c ∈ cursor, c < key r := by
  cases cursor with
  | none => exact .inr (by simp)
  | some c =>
    rcases le_or_gt (key r) c with hle | hgt
    · exact .inl (h.covered c hn r hr hle)
    · exact .inr (by simpa using hgt)

theorem le_getLast {rows : List ρ} (hp : rows.Pairwise fun r r' => key r < key r') (hne : rows ≠ []) {s : ρ}
    (hs : s ∈ rows) : key s ≤ key (rows.getLast hne) := by
  rw [← List.dropLast_append_getLast hne] at hs hp
  rcases List.mem_append.1 hs with hs | hs
  · exact le_of_lt ((List.pairwise_append.1 hp).2.2 s hs _ (List.mem_singleton.2 rfl))
  · rw [List.mem_singleton.1 hs]

theorem Walk.Covers.step {tables : List (List ρ)} {w : Walk ρ κ} (h : w.Covers key limit tables) (hl : 0 < limit)
    (hk : (rows.map key).Nodup) : (w.step key limit rows).Covers key limit (tables ++ [rows]) := by
  have before : ∀ {r : ρ}, (∀ t ∈ tables ++ [rows], r ∈ t) → ∀ t ∈ tables, r ∈ t :=
    fun hr t ht => hr t (List.mem_append_left _ ht)
  have now : ∀ {r : ρ}, (∀ t ∈ tables ++ [rows], r ∈ t) → r ∈ rows :=
    fun hr => hr rows (List.mem_append_right _ (List.mem_singleton.2 rfl))
  cases hn : w.next with
  | none =>
    have hstep : w.step key limit rows = w := by simp [Walk.step, hn]
    rw [hstep]
    refine ⟨h.sorted, fun r hr => ?_, h.first, h.last, h.below, ?_, fun _ r hr => h.ended hn r (before hr),
      fun hne => absurd hn hne⟩
    · obtain ⟨t, ht, hm⟩ := h.found r hr
      exact ⟨t, List.mem_append_left _ ht, hm⟩
    · intro c hc
      rw [hn] at hc
      cases hc
  | some cursor =>
    have hstep : w.step key limit rows =
        ⟨w.items ++ (page key rows cursor limit).1, (page key rows cursor limit).2.map some⟩ := by simp [Walk.step, hn]
    rw [hstep]
    rcases page_cases key rows cursor limit with ⟨hitems, hlen, hnext⟩ | ⟨hitems, hlen, hnext⟩ <;>
      rw [hitems] at hlen <;> rw [hitems, hnext]
    · -- a full page: its last row is the cursor
      have hne : scan key rows cursor limit ≠ [] := fun heq => by
        rw [heq] at hlen
        exact absurd hlen (Nat.ne_of_lt hl)
      have hlast := List.getLast?_eq_some_getLast hne
      obtain ⟨hsorted, hfound⟩ := h.append hn hk limit
      refine ⟨hsorted, hfound, ?_, ?_, ?_, ?_, ?_, ?_⟩
      · simp [hlast]
      · intro c hc
        simp only [hlast, Option.map_some, Option.some.injEq] at hc
        exact ⟨_, List.mem_append_right _ (List.getLast_mem hne), hc⟩
      · intro c hc s hs
        simp only [hlast, Option.map_some, Option.some.injEq] at hc
        subst hc
        rcases List.mem_append.1 hs with hs | hs
        · exact le_of_lt (h.items_lt hn hs (mem_of_mem_scan (List.getLast_mem hne)).2)
        · exact le_getLast (pairwise_scan hk) hne hs
      · intro c hc r hr hle
        simp only [hlast, Option.map_some, Option.some.injEq] at hc
        subst hc
        rcases h.had_or_behind hn (before hr) with hm | hb
        · exact List.mem_append_left _ hm
        · rcases scan_reaches limit hk (now hr) hb with hm | ⟨_, hlt⟩
          · exact List.mem_append_right _ hm
          · exact absurd (hlt _ (List.getLast_mem hne)) (not_lt_of_ge hle)
      · simp [hlast]
      · intro _
        rw [List.length_append, hlen, h.full (by simp [hn]), List.length_append, List.length_singleton, Nat.add_mul, Nat.one_mul]
    · -- a short page: nothing is behind it
      obtain ⟨hsorted, hfound⟩ := h.append hn hk (limit + 1)
      refine ⟨hsorted, hfound, by simp, by simp, by simp, by simp, fun _ r hr => ?_, by simp⟩
      rcases h.had_or_behind hn (before hr) with hm | hb
      · exact List.mem_append_left _ hm
      · rcases scan_reaches (limit + 1) hk (now hr) hb with hm | ⟨hfull, _⟩
        · exact List.mem_append_right _ hm
        · omega

theorem walk_concat (tables : List (List ρ)) (rows : List ρ) :
    walk key limit (tables ++ [rows]) = (walk key limit tables).step key limit rows := by
  rw [walk, List.foldl_append]
  rfl

/-- the walk that a client makes over a table that changes -/
theorem walk_covers (hl : 0 < limit) {tables : List (List ρ)} (hk : ∀ rows ∈ tables, (rows.map key).Nodup) :
    (walk key limit tables).Covers key limit tables := by
  induction tables using List.reverseRecOn with
  | nil => exact Walk.covers_start limit
  | append_singleton tables rows ih =>
    rw [walk_concat]
    have hw := ih fun t ht => hk t (List.mem_append_left _ ht)
    exact hw.step hl (hk rows (List.mem_append_right _ (List.mem_singleton.2 rfl)))

/-! ## Turns -/

variable (key)

def turn (rows : List ρ) (cursor : Option κ) (limit : ℕ) : List ρ :=
  if (scan key rows cursor limit).isEmpty then scan key rows none limit else scan key rows cursor limit

/-- the rows of each turn; the cursor is the last row of the turn before -/
def turns (limit : ℕ) : Option κ → List (List ρ) → List (List ρ)
  | _, [] => []
  | cursor, rows :: tables =>
    turn key rows cursor limit :: turns limit ((turn key rows cursor limit).getLast?.map key) tables

/-- the cursor after them -/
def after (limit : ℕ) : Option κ → List (List ρ) → Option κ
  | cursor, [] => cursor
  | cursor, rows :: tables => after limit ((turn key rows cursor limit).getLast?.map key) tables

variable {key}

theorem turns_append (cursor : Option κ) (tables tables' : List (List ρ)) :
    turns key limit cursor (tables ++ tables') =
      turns key limit cursor tables ++ turns key limit (after key limit cursor tables) tables' := by
  induction tables generalizing cursor with
  | nil => rfl
  | cons rows tables ih =>
    simp only [List.cons_append, turns, after]
    rw [ih]

theorem after_append (cursor : Option κ) (tables tables' : List (List ρ)) :
    after key limit cursor (tables ++ tables') = after key limit (after key limit cursor tables) tables' := by
  induction tables generalizing cursor with
  | nil => rfl
  | cons rows tables ih => exact ih _

@[simp] theorem length_turns (cursor : Option κ) (tables : List (List ρ)) :
    (turns key limit cursor tables).length = tables.length := by
  induction tables generalizing cursor with
  | nil => rfl
  | cons rows tables ih => simp only [turns, List.length_cons, ih]

/-- the keys that come before `k` in the order of the turns -/
def ahead (keys : Finset κ) (k : κ) : Option κ → Finset κ
  | none => keys.filter fun k' => k' < k
  | some c => if c < k then keys.filter fun k' => c < k' ∧ k' < k else keys.filter fun k' => c < k' ∨ k' < k

theorem ahead_subset (keys : Finset κ) (k : κ) : ∀ cursor, ahead keys k cursor ⊆ keys.filter fun k' => k' ≠ k
  | none => fun k' h => by
    simp only [ahead, Finset.mem_filter] at h ⊢
    exact ⟨h.1, ne_of_lt h.2⟩
  | some c => fun k' h => by
    simp only [ahead] at h
    split at h <;> simp only [Finset.mem_filter] at h ⊢
    · exact ⟨h.1, ne_of_lt h.2.2⟩
    · rename_i hc
      refine ⟨h.1, h.2.elim (fun hlt => ?_) ne_of_lt⟩
      exact ne_of_gt (lt_of_le_of_lt (le_of_not_gt hc) hlt)

/-- a cursor that moves to a key ahead leaves fewer -/
theorem ahead_card_lt {keys : Finset κ} {k k' : κ} (h : k' ∈ ahead keys k cursor) :
    (ahead keys k (some k')).card < (ahead keys k cursor).card := by
  refine Finset.card_lt_card ⟨fun x hx => ?_, fun hsub => ?_⟩
  · cases cursor with
    | none =>
      have hlt : k' < k := (Finset.mem_filter.1 h).2
      simp only [ahead, hlt, if_true, Finset.mem_filter] at hx ⊢
      exact ⟨hx.1, hx.2.2⟩
    | some c =>
      by_cases hc : c < k <;> simp only [ahead, hc, if_true, if_false, Finset.mem_filter] at h ⊢
      · simp only [ahead, h.2.2, if_true, Finset.mem_filter] at hx
        exact ⟨hx.1, lt_trans h.2.1 hx.2.1, hx.2.2⟩
      · by_cases hlt : k' < k <;> simp only [ahead, hlt, if_true, if_false, Finset.mem_filter] at hx
        · exact ⟨hx.1, .inr hx.2.2⟩
        · exact ⟨hx.1, hx.2.imp (lt_trans (h.2.resolve_right hlt)) id⟩
  · have hself := hsub h
    by_cases hlt : k' < k <;> simp [ahead, hlt] at hself

/-- a scan from before the row that does not have it ends before it -/
theorem scan_passes (hl : 0 < limit) (hk : (rows.map key).Nodup) (hr : r ∈ rows) (hc : ∀ c ∈ cursor, c < key r)
    (hn : r ∉ scan key rows cursor limit) :
    ∃ s ∈ scan key rows cursor limit, (scan key rows cursor limit).getLast? = some s ∧ key s < key r := by
  obtain ⟨hlen, hlt⟩ := (scan_reaches limit hk hr hc).resolve_left hn
  have hne : scan key rows cursor limit ≠ [] := fun heq => by
    rw [heq] at hlen
    exact absurd hlen (Nat.ne_of_lt hl)
  exact ⟨_, List.getLast_mem hne, List.getLast?_eq_some_getLast hne, hlt _ (List.getLast_mem hne)⟩

/-- a turn without the row goes on to a key ahead of it -/
theorem turn_advances (cursor : Option κ) {keys : Finset κ} (hl : 0 < limit) (hk : (rows.map key).Nodup)
    (hkeys : ∀ s ∈ rows, key s ∈ keys) (hr : r ∈ rows) (hn : r ∉ turn key rows cursor limit) :
    ∃ s, (turn key rows cursor limit).getLast? = some s ∧ key s ∈ ahead keys (key r) cursor := by
  unfold turn at hn ⊢
  by_cases hc : ∀ c ∈ cursor, c < key r
  · have hscan : r ∉ scan key rows cursor limit := by
      split at hn
      · rename_i he
        rw [List.isEmpty_iff.1 he]
        exact List.not_mem_nil
      · exact hn
    obtain ⟨s, hs, hlast, hlt⟩ := scan_passes hl hk hr hc hscan
    obtain ⟨hsr, hsc⟩ := mem_of_mem_scan hs
    have hne : ¬ (scan key rows cursor limit).isEmpty = true := fun he => by
      rw [List.isEmpty_iff.1 he] at hs
      cases hs
    rw [if_neg hne]
    refine ⟨s, hlast, ?_⟩
    cases cursor with
    | none => exact Finset.mem_filter.2 ⟨hkeys s hsr, hlt⟩
    | some c =>
      simp only [ahead, hc c rfl, if_true, Finset.mem_filter]
      exact ⟨hkeys s hsr, hsc c rfl, hlt⟩
  · cases cursor with
    | none => simp at hc
    | some c =>
      have hge : ¬ c < key r := by simpa using hc
      have hahead : ahead keys (key r) (some c) = keys.filter fun k' => c < k' ∨ k' < key r := if_neg hge
      rw [hahead]
      by_cases he : (scan key rows (some c) limit).isEmpty = true
      · -- the turn starts over
        rw [if_pos he] at hn ⊢
        obtain ⟨s, hs, hlast, hlt⟩ := scan_passes hl hk hr (by simp) hn
        exact ⟨s, hlast, Finset.mem_filter.2 ⟨hkeys s (mem_of_mem_scan hs).1, .inr hlt⟩⟩
      · have hne : scan key rows (some c) limit ≠ [] := fun heq => he (by rw [heq]; rfl)
        obtain ⟨hsr, hsc⟩ := mem_of_mem_scan (List.getLast_mem hne)
        rw [if_neg he]
        exact ⟨_, List.getLast?_eq_some_getLast hne, Finset.mem_filter.2 ⟨hkeys _ hsr, .inl (hsc c rfl)⟩⟩

/-- **No row starves.** A row that is in every table is in one of as many turns as there are keys. -/
theorem turns_reach (cursor : Option κ) {keys : Finset κ} (hl : 0 < limit) {tables : List (List ρ)}
    (hk : ∀ rows ∈ tables, (rows.map key).Nodup ∧ r ∈ rows ∧ ∀ s ∈ rows, key s ∈ keys)
    (hlen : keys.card ≤ tables.length) (hr : key r ∈ keys) : ∃ got ∈ turns key limit cursor tables, r ∈ got := by
  -- each turn without the row leaves fewer keys ahead of it
  have main : ∀ (tables : List (List ρ)) (cursor : Option κ),
      (∀ rows ∈ tables, (rows.map key).Nodup ∧ r ∈ rows ∧ ∀ s ∈ rows, key s ∈ keys) →
      (ahead keys (key r) cursor).card < tables.length → ∃ got ∈ turns key limit cursor tables, r ∈ got := by
    intro tables
    induction tables with
    | nil =>
      intro cursor _ h
      exact absurd h (Nat.not_lt_zero _)
    | cons rows tables ih =>
      intro cursor htables h
      obtain ⟨hnd, hrow, hkeys⟩ := htables rows List.mem_cons_self
      by_cases hgot : r ∈ turn key rows cursor limit
      · exact ⟨_, List.mem_cons_self, hgot⟩
      · obtain ⟨s, hlast, hs⟩ := turn_advances cursor hl hnd hkeys hrow hgot
        have hfewer := ahead_card_lt hs
        rw [List.length_cons] at h
        have hnext : (ahead keys (key r) ((turn key rows cursor limit).getLast?.map key)).card < tables.length := by
          rw [hlast, Option.map_some]
          omega
        obtain ⟨got, hg, hm⟩ := ih _ (fun t ht => htables t (List.mem_cons_of_mem rows ht)) hnext
        exact ⟨got, List.mem_cons_of_mem _ hg, hm⟩
  refine main tables cursor hk (lt_of_lt_of_le (Finset.card_lt_card ⟨?_, ?_⟩) hlen)
  · exact (ahead_subset keys (key r) cursor).trans (Finset.filter_subset _ _)
  · intro hsub
    have := Finset.mem_filter.1 (ahead_subset keys (key r) cursor (hsub hr))
    exact this.2 rfl

end ServerBee.Lib.Keyset
