/-
What a client sees that follows the cursors of a listing while rows come and go.

The texts of the cursors read back as positions, so the client's requests are a keyset walk over the rows that are shown.
-/
import ServerBee.Listings.Model

namespace ServerBee.Listings

open ServerBee.Lib

variable {codec : Codec} {ρ : Type} {createdAt : ρ → ℤ} {id : ρ → String} {shown : ρ → Bool} {limit : ℕ}

/-! ## Cursors -/

theorem splitOnce_bar {before : List Char} (h : '|' ∉ before) (after : List Char) :
    splitOnce ['|'] (before ++ '|' :: after) = some (before, after) := by
  induction before with
  | nil => simp [splitOnce]
  | cons c before ih =>
    have hc : '|' ≠ c := fun heq => h (heq ▸ List.mem_cons_self)
    simp [splitOnce, hc, ih (fun hm => h (List.mem_cons_of_mem c hm))]

/-- an id may have bars of its own -/
theorem decodeCursor_encodeCursor {t : ℤ} {i : String} (h : codec.Reads t i) :
    decodeCursor codec (encodeCursor codec t i) = .ok (t, i) := by
  unfold decodeCursor encodeCursor
  rw [h.text]
  simp only [rawCursor, splitOnce_bar h.bar, h.time, String.ofList_toList]

theorem position_lt_position {t t' : ℤ} {i i' : String} :
    position t i < position t' i' ↔ t' < t ∨ t' = t ∧ i' < i := by
  simp only [position, OrderDual.toDual_lt_toDual]
  exact Prod.Lex.toLex_lt_toLex

theorem cursorOf_position (t : ℤ) (i : String) : cursorOf codec (position t i) = encodeCursor codec t i := rfl

/-! ## A client -/

/-- the rows so far, and the cursor of the next request if there is one -/
structure Traversal (ρ : Type) where
  items : List ρ
  next : Option (Option (List Char))
deriving DecidableEq, Repr

abbrev Listing (ρ : Type) := Option (List Char) → List ρ → Except AppError (List ρ × Option (List Char))

/-- a request with the cursor of the answer before, on the table as it is now -/
def Traversal.request (list : Listing ρ) (t : Traversal ρ) (rows : List ρ) : Except AppError (Traversal ρ) :=
  t.next.elim (.ok t) fun cursor => (list cursor rows).map fun page => ⟨t.items ++ page.1, page.2.map some⟩

def traverse (list : Listing ρ) (tables : List (List ρ)) : Except AppError (Traversal ρ) :=
  tables.foldlM (Traversal.request list) ⟨[], some none⟩

/-- the client's side of a walk -/
def texts (codec : Codec) (w : Keyset.Walk ρ Position) : Traversal ρ :=
  ⟨w.items, w.next.map (Option.map (cursorOf codec))⟩

/-- a listing answers a cursor of its own with the page behind it -/
theorem listed_cursor {cursor : Option Position}
    (hc : ∀ c ∈ cursor, ∃ r : ρ, codec.Reads (createdAt r) (id r) ∧ position (createdAt r) (id r) = c) (rows : List ρ) :
    listed codec createdAt id shown limit (cursor.map (cursorOf codec)) rows =
      .ok ((Keyset.page (fun r => position (createdAt r) (id r)) (rows.filter shown) cursor limit).1,
        (Keyset.page (fun r => position (createdAt r) (id r)) (rows.filter shown) cursor limit).2.map (cursorOf codec)) := by
  cases cursor with
  | none => rfl
  | some c =>
    obtain ⟨r, hr, rfl⟩ := hc c rfl
    simp only [listed, Option.map_some, cursorOf_position, decodeCursor_encodeCursor hr]
    rfl

theorem traverse_concat (list : Listing ρ) (tables : List (List ρ)) (rows : List ρ) :
    traverse list (tables ++ [rows]) = (traverse list tables).bind fun t => t.request list rows := by
  rw [traverse, List.foldlM_append]
  change Except.bind _ _ = Except.bind _ _
  congr 1
  funext t
  change Except.bind _ _ = _
  cases t.request list rows <;> rfl

/-- a request is a step of the walk -/
theorem request_texts {w : Keyset.Walk ρ Position} {tables : List (List ρ)}
    (hw : w.Covers (fun r => position (createdAt r) (id r)) limit tables)
    (hread : ∀ r ∈ w.items, codec.Reads (createdAt r) (id r)) (rows : List ρ) :
    (texts codec w).request (listed codec createdAt id shown limit) rows =
      .ok (texts codec (w.step (fun r => position (createdAt r) (id r)) limit (rows.filter shown))) := by
  cases hn : w.next with
  | none => simp [texts, Traversal.request, Keyset.Walk.step, hn]
  | some cursor =>
    have hc : ∀ c ∈ cursor, ∃ r : ρ, codec.Reads (createdAt r) (id r) ∧ position (createdAt r) (id r) = c := by
      intro c hc
      obtain ⟨r, hr, hp⟩ := hw.last c (by rw [hn, Option.mem_def.1 hc])
      exact ⟨r, hread r hr, hp⟩
    simp only [texts, Traversal.request, Keyset.Walk.step, hn, Option.map_some, Option.elim_some, listed_cursor hc, Except.map]
    simp [Option.map_map, Function.comp_def]

/-- the requests of a client are the walk over the rows that are shown, and none of them fails -/
theorem traverse_listed (shown : ρ → Bool) (hl : 0 < limit) {tables : List (List ρ)}
    (hk : ∀ rows ∈ tables, (rows.map fun r => position (createdAt r) (id r)).Nodup)
    (hread : ∀ rows ∈ tables, ∀ r ∈ rows, codec.Reads (createdAt r) (id r)) :
    (Keyset.walk (fun r => position (createdAt r) (id r)) limit (tables.map (List.filter shown))).Covers
        (fun r => position (createdAt r) (id r)) limit (tables.map (List.filter shown)) ∧
      traverse (listed codec createdAt id shown limit) tables =
        .ok (texts codec (Keyset.walk (fun r => position (createdAt r) (id r)) limit (tables.map (List.filter shown)))) := by
  have hcovers : ∀ ts : List (List ρ), (∀ t ∈ ts, t ∈ tables) →
      (Keyset.walk (fun r => position (createdAt r) (id r)) limit (ts.map (List.filter shown))).Covers
        (fun r => position (createdAt r) (id r)) limit (ts.map (List.filter shown)) := by
    intro ts hts
    refine Keyset.walk_covers hl fun t ht => ?_
    obtain ⟨t', ht', rfl⟩ := List.mem_map.1 ht
    exact (hk t' (hts t' ht')).sublist (List.filter_sublist.map _)
  refine ⟨hcovers tables fun t ht => ht, ?_⟩
  have main : ∀ ts : List (List ρ), (∀ t ∈ ts, t ∈ tables) → traverse (listed codec createdAt id shown limit) ts =
      .ok (texts codec (Keyset.walk (fun r => position (createdAt r) (id r)) limit (ts.map (List.filter shown)))) := by
    intro ts
    induction ts using List.reverseRecOn with
    | nil => exact fun _ => rfl
    | append_singleton ts rows ih =>
      intro hts
      have hts' : ∀ t ∈ ts, t ∈ tables := fun t ht => hts t (List.mem_append_left _ ht)
      have hw := hcovers ts hts'
      rw [traverse_concat, ih hts', List.map_append, List.map_singleton, Keyset.walk_concat]
      refine request_texts hw (fun r hr => ?_) rows
      obtain ⟨t, ht, hm⟩ := hw.found r hr
      obtain ⟨t', ht', rfl⟩ := List.mem_map.1 ht
      exact hread t' (hts' t' ht') r (List.mem_filter.1 hm).1
  exact main tables fun t ht => ht

/-- what a client has of the rows that a listing shows: newest first and so no row twice, nothing else, and once there is no
further page every row that was there all the time -/
structure Exact (createdAt : ρ → ℤ) (id : ρ → String) (shown : ρ → Bool) (limit : ℕ) (tables : List (List ρ))
    (t : Traversal ρ) : Prop where
  order : t.items.Pairwise fun r r' => createdAt r' < createdAt r ∨ createdAt r' = createdAt r ∧ id r' < id r
  only : ∀ r ∈ t.items, shown r = true ∧ ∃ rows ∈ tables, r ∈ rows
  complete : t.next = none → ∀ r, shown r = true → (∀ rows ∈ tables, r ∈ rows) → r ∈ t.items
  /-- every page but the last one is full -/
  full : t.next ≠ none → t.items.length = tables.length * limit

theorem traverse_exact (hl : 0 < limit) {tables : List (List ρ)} (hid : ∀ rows ∈ tables, (rows.map id).Nodup)
    (hread : ∀ rows ∈ tables, ∀ r ∈ rows, codec.Reads (createdAt r) (id r)) :
    ∃ t, traverse (listed codec createdAt id shown limit) tables = .ok t ∧ Exact createdAt id shown limit tables t := by
  have hk : ∀ rows ∈ tables, (rows.map fun r => position (createdAt r) (id r)).Nodup := by
    intro rows hr
    have hmap : (rows.map fun r => position (createdAt r) (id r)).map (fun p => (ofLex (OrderDual.ofDual p)).2) =
        rows.map id := by
      rw [List.map_map]
      rfl
    exact List.Nodup.of_map (fun p : Position => (ofLex (OrderDual.ofDual p)).2) (by rw [hmap]; exact hid rows hr)
  obtain ⟨hw, ht⟩ := traverse_listed shown hl hk hread
  refine ⟨_, ht, ⟨?_, ?_, ?_, ?_⟩⟩
  · exact hw.sorted.imp fun h => position_lt_position.1 h
  · intro r hr
    obtain ⟨rows, hm, hrm⟩ := hw.found r hr
    obtain ⟨rows', hm', rfl⟩ := List.mem_map.1 hm
    exact ⟨(List.mem_filter.1 hrm).2, rows', hm', (List.mem_filter.1 hrm).1⟩
  · intro hn r hs hr
    refine hw.ended (by simpa [texts] using hn) r fun rows hm => ?_
    obtain ⟨rows', hm', rfl⟩ := List.mem_map.1 hm
    exact List.mem_filter.2 ⟨hr rows' hm', hs⟩
  · intro hn
    have hfull := hw.full (by simpa [texts] using hn)
    rwa [List.length_map] at hfull

theorem limitOf_pos {limit : Option ℕ} (h : limit ≠ some 0) : 0 < limitOf limit := by
  cases limit with
  | none => decide
  | some n =>
    have hn : n ≠ 0 := fun heq => h (by rw [heq])
    simp only [limitOf, Option.getD_some, MAX_LIMIT]
    omega

/-- **Paging misses nothing and repeats nothing.** A client follows the cursors of the security events, or of the blocks, while
rows come and go between its requests. No request fails, the rows come newest first, each at most once and only rows that the
filters show, every page but the last one is full, and at the end the client has every row that was there all the time. -/
theorem listings_exact (codec : Codec) (like : String → String → Bool) (params : ListEventsParams) (q : ListQuery)
    (hparams : params.limit ≠ some 0) (hq : q.limit ≠ some 0) (events : List (List SecurityEvent))
    (blocks : List (List Block)) (hevents : ∀ rows ∈ events, (rows.map SecurityEvent.id).Nodup)
    (hblocks : ∀ rows ∈ blocks, (rows.map Block.id).Nodup)
    (hread : ∀ rows ∈ events, ∀ r ∈ rows, codec.Reads r.createdAt r.id)
    (hread' : ∀ rows ∈ blocks, ∀ r ∈ rows, codec.Reads r.createdAt r.id) :
    (∃ t, traverse (listEvents codec params) events = .ok t ∧
      Exact SecurityEvent.createdAt SecurityEvent.id params.shows (limitOf params.limit) events t) ∧
    ∃ t, traverse (listBlocks codec like q) blocks = .ok t ∧
      Exact Block.createdAt Block.id (q.shows like) (limitOf q.limit) blocks t :=
  ⟨traverse_exact (limitOf_pos hparams) hevents hread, traverse_exact (limitOf_pos hq) hblocks hread'⟩

/-- two times and the cursors of two rows -/
def smallCodec : Codec where
  encode text :=
    if text = "1970-01-01T00:00:05+00:00|a".toList then "MTk3MC0wMS0wMVQwMDowMDowNSswMDowMHxh".toList
    else "MTk3MC0wMS0wMVQwMDowMDowNyswMDowMHxi".toList
  decode text :=
    if text = "MTk3MC0wMS0wMVQwMDowMDowNSswMDowMHxh".toList then some "1970-01-01T00:00:05+00:00|a".toList
    else if text = "MTk3MC0wMS0wMVQwMDowMDowNyswMDowMHxi".toList then some "1970-01-01T00:00:07+00:00|b".toList
    else none
  toRfc3339 time := if time = 5 then "1970-01-01T00:00:05+00:00".toList else "1970-01-01T00:00:07+00:00".toList
  parseFromRfc3339 text :=
    if text = "1970-01-01T00:00:05+00:00".toList then some 5
    else if text = "1970-01-01T00:00:07+00:00".toList then some 7
    else none

/-- the older event is gone when its page is asked for, and a newer one has come -/
def smallEvents : List (List SecurityEvent) :=
  let older : SecurityEvent := ⟨"a", "s", "port_scan", "high", "192.0.2.1", 5⟩
  let newer : SecurityEvent := ⟨"b", "s", "port_scan", "high", "192.0.2.1", 7⟩
  [[older, newer], [newer]]

def smallBlocks : List (List Block) := [[⟨"a", "192.0.2.1", "auto", 5⟩, ⟨"b", "192.0.2.2", "manual", 7⟩]]

theorem smallListings_exact :
    (∃ t, traverse (listEvents smallCodec ⟨none, none, none, none, none, none, some 1⟩) smallEvents = .ok t ∧
      Exact SecurityEvent.createdAt SecurityEvent.id
        (ListEventsParams.shows ⟨none, none, none, none, none, none, some 1⟩) (limitOf (some 1)) smallEvents t) ∧
    ∃ t, traverse (listBlocks smallCodec (fun _ _ => true) ⟨none, none, none⟩) smallBlocks = .ok t ∧
      Exact Block.createdAt Block.id (ListQuery.shows (fun _ _ => true) ⟨none, none, none⟩) (limitOf none) smallBlocks t := by
  have reads : ∀ t i, t = 5 ∧ i = "a" ∨ t = 7 ∧ i = "b" → smallCodec.Reads t i := by
    rintro t i (⟨rfl, rfl⟩ | ⟨rfl, rfl⟩) <;> exact ⟨by decide, by decide, by decide⟩
  refine listings_exact smallCodec (fun _ _ => true) ⟨none, none, none, none, none, none, some 1⟩ ⟨none, none, none⟩
    (by decide) (by decide) smallEvents smallBlocks (by decide) (by decide) ?_ ?_
  · have h : ∀ rows ∈ smallEvents, ∀ r ∈ rows,
        r.createdAt = 5 ∧ r.id = "a" ∨ r.createdAt = 7 ∧ r.id = "b" := by decide
    exact fun rows hm r hr => reads _ _ (h rows hm r hr)
  · have h : ∀ rows ∈ smallBlocks, ∀ r ∈ rows,
        r.createdAt = 5 ∧ r.id = "a" ∨ r.createdAt = 7 ∧ r.id = "b" := by decide
    exact fun rows hm r hr => reads _ _ (h rows hm r hr)

end ServerBee.Listings
