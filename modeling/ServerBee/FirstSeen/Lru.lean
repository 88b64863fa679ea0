/-
When the registry is a cache of the most recently marked identities.

The store drops the key that was inserted first, the header promises the one that was marked least recently. `Meets`: a mark
drops a key only where the two are the same, and its key belongs to no other identity. In a run of such marks, from a file
without repeated or surplus keys, the store holds the most recent identities (`Inv`), so every mark answers by recency, the
map and the queue agree, and a new process answers like the old one (`lru_store`).
-/
import ServerBee.FirstSeen.Model

namespace ServerBee.FirstSeen

open ServerBee.Lib
open scoped List

/-! ## Keys -/

theorem key_identityOf (key : Text) : (identityOf key).key = key := by
  have hsplit : ∀ {k user ip : Text}, splitKey k = some (user, ip) → makeKey user ip = k := by
    intro k
    induction k with
    | nil => intro user ip h; cases h
    | cons c k ih =>
      intro user ip h
      rw [splitKey] at h
      split_ifs at h with hc
      · obtain ⟨rfl, rfl⟩ := Prod.mk.inj (Option.some.inj h)
        rw [hc]
        rfl
      · obtain ⟨⟨user', ip'⟩, h', heq⟩ := Option.map_eq_some_iff.1 h
        obtain ⟨rfl, rfl⟩ := Prod.mk.inj heq
        change c :: makeKey user' ip' = c :: k
        rw [ih h']
  unfold identityOf
  cases h : splitKey key with
  | none => rfl
  | some p => exact hsplit h

theorem identityOf_injective : Function.Injective identityOf := Function.LeftInverse.injective key_identityOf

/-! ## The map and the queue -/

section Maps

variable {κ β : Type} {m : AList fun _ : κ => β}

theorem length_keys {order : List κ} (hsame : ∀ k, k ∈ m ↔ k ∈ order) (hnodup : order.Nodup) :
    m.keys.length = order.length := by
  have hperm : m.keys.Perm order := by
    rw [List.perm_ext_iff_of_nodup m.keys_nodup hnodup]
    intro k
    rw [← AList.mem_keys, hsame]
  exact hperm.length_eq

variable [DecidableEq κ] {k : κ}

theorem length_keys_insert (h : k ∉ m) (v : β) : (m.insert k v).keys.length = m.keys.length + 1 := by
  rw [AList.keys_insert, List.length_cons, List.erase_of_not_mem]
  rwa [← AList.mem_keys]

theorem length_keys_erase (h : k ∈ m) : (m.erase k).keys.length = m.keys.length - 1 := by
  rw [AList.keys_erase, List.length_erase_of_mem (AList.mem_keys.1 h)]

end Maps

/-- the map and the queue hold the same keys, none twice and no more than fit -/
structure Consistent (s : FirstSeenStore) : Prop where
  same : ∀ k, k ∈ s.map ↔ k ∈ s.order
  nodup : s.order.Nodup
  fits : s.order.length ≤ s.cap

theorem evict_fits {cap : ℕ} {map : Stamps} {order : List Text} (h : map.keys.length ≤ cap) :
    evict cap map order = (map, order) := by
  cases order with
  | nil => rfl
  | cons old order => rw [evict, if_neg (by omega)]

theorem evict_one {cap : ℕ} {map : Stamps} {old : Text} {order : List Text} (h : map.keys.length = cap + 1) (hold : old ∈ map) :
    evict cap map (old :: order) = (map.erase old, order) := by
  have hlen : (map.erase old).keys.length = cap := by
    rw [length_keys_erase hold, h, Nat.add_sub_cancel]
  rw [evict, if_pos (by omega), evict_fits hlen.le]

namespace FirstSeenStore

variable {s : FirstSeenStore}

theorem mark_known (user ip : Text) (ts : ℤ) (h : makeKey user ip ∈ s.map) : s.mark user ip ts = (s, false) := if_pos h

theorem mark_answer (s : FirstSeenStore) (user ip : Text) (ts : ℤ) :
    (s.mark user ip ts).2 = true ↔ makeKey user ip ∉ s.map := by
  rw [mark]
  split_ifs with h
  · simp [h]
  · simp [h]

/-- a new key, while there is room -/
theorem mark_room (hs : Consistent s) (user ip : Text) (ts : ℤ) (h : makeKey user ip ∉ s.map) (hroom : s.order.length < s.cap) :
    (s.mark user ip ts).1 =
      { s with map := s.map.insert (makeKey user ip) ts, order := s.order ++ [makeKey user ip], dirty := true } := by
  have hlen : (s.map.insert (makeKey user ip) ts).keys.length ≤ s.cap := by
    rw [length_keys_insert h, length_keys hs.same hs.nodup]
    omega
  rw [mark, if_neg h, evict_fits hlen]

/-- a new key in a full store takes the place of the one that was inserted first -/
theorem mark_full (hs : Consistent s) (user ip : Text) (ts : ℤ) (h : makeKey user ip ∉ s.map) {old : Text} {rest : List Text}
    (horder : s.order = old :: rest) (hfull : s.order.length = s.cap) :
    (s.mark user ip ts).1 =
      { s with map := (s.map.insert (makeKey user ip) ts).erase old, order := rest ++ [makeKey user ip], dirty := true } := by
  have hlen : (s.map.insert (makeKey user ip) ts).keys.length = s.cap + 1 := by
    rw [length_keys_insert h, length_keys hs.same hs.nodup, hfull]
  have hold : old ∈ s.map.insert (makeKey user ip) ts := by
    rw [AList.mem_insert, hs.same, horder]
    exact Or.inr List.mem_cons_self
  rw [mark, if_neg h, horder, List.cons_append, evict_one hlen hold]

end FirstSeenStore

/-! ## Stores that answer alike -/

structure Alike (s s' : FirstSeenStore) : Prop where
  cap : s.cap = s'.cap
  order : s.order = s'.order
  lookup : ∀ k, s.map.lookup k = s'.map.lookup k

theorem Alike.mem {s s' : FirstSeenStore} (h : Alike s s') (k : Text) : k ∈ s.map ↔ k ∈ s'.map := by
  rw [← AList.lookup_isSome, ← AList.lookup_isSome, h.lookup k]

theorem evict_alike {cap : ℕ} {map map' : Stamps} (order : List Text) (h : ∀ k, map.lookup k = map'.lookup k) :
    (evict cap map order).2 = (evict cap map' order).2 ∧
      ∀ k, (evict cap map order).1.lookup k = (evict cap map' order).1.lookup k := by
  induction order generalizing map map' with
  | nil => exact ⟨rfl, h⟩
  | cons old order ih =>
    have hlen : map.keys.length = map'.keys.length := by
      apply length_keys _ map'.keys_nodup
      intro k
      rw [← AList.lookup_isSome, h k, AList.lookup_isSome, AList.mem_keys]
    rw [evict, evict, hlen]
    split_ifs
    · apply ih
      intro k
      by_cases hk : k = old
      · rw [hk, AList.lookup_erase, AList.lookup_erase]
      · rw [AList.lookup_erase_ne hk, AList.lookup_erase_ne hk, h k]
    · exact ⟨rfl, h⟩

theorem Alike.mark {s s' : FirstSeenStore} (h : Alike s s') (user ip : Text) (ts : ℤ) :
    (s.mark user ip ts).2 = (s'.mark user ip ts).2 ∧ Alike (s.mark user ip ts).1 (s'.mark user ip ts).1 := by
  by_cases hmem : makeKey user ip ∈ s.map
  · rw [s.mark_known _ _ _ hmem, s'.mark_known _ _ _ ((h.mem _).1 hmem)]
    exact ⟨rfl, h⟩
  · have hmem' : makeKey user ip ∉ s'.map := fun hm => hmem ((h.mem _).2 hm)
    have hinsert : ∀ k, (s.map.insert (makeKey user ip) ts).lookup k = (s'.map.insert (makeKey user ip) ts).lookup k := by
      intro k
      by_cases hk : k = makeKey user ip
      · rw [hk, AList.lookup_insert, AList.lookup_insert]
      · rw [AList.lookup_insert_ne hk, AList.lookup_insert_ne hk, h.lookup k]
    obtain ⟨horder, hlookup⟩ : (evict s.cap _ _).2 = _ ∧ _ := evict_alike (s.order ++ [makeKey user ip]) hinsert
    rw [FirstSeenStore.mark, FirstSeenStore.mark, if_neg hmem, if_neg hmem', ← h.cap, ← h.order]
    exact ⟨rfl, ⟨rfl, horder, hlookup⟩⟩

/-- what a store answers to a sequence of marks -/
def FirstSeenStore.answers (s : FirstSeenStore) : List (Text × Text × ℤ) → List Bool
  | [] => []
  | (user, ip, ts) :: marks => (s.mark user ip ts).2 :: (s.mark user ip ts).1.answers marks

theorem Alike.answers {s s' : FirstSeenStore} (h : Alike s s') (marks : List (Text × Text × ℤ)) :
    s.answers marks = s'.answers marks := by
  induction marks generalizing s s' with
  | nil => rfl
  | cons mark marks ih =>
    obtain ⟨user, ip, ts⟩ := mark
    obtain ⟨hanswer, hstore⟩ := h.mark user ip ts
    rw [FirstSeenStore.answers, FirstSeenStore.answers, hanswer, ih hstore]

/-! ## Reopening -/

/-- a map that is filled from entries with distinct keys -/
theorem lookup_foldl {entries : Entries} (hnodup : (entries.map Prod.fst).Nodup) (m : Stamps) (k : Text) :
    (entries.foldl (fun map e => map.insert e.1 e.2) m).lookup k = (entries.lookup k).or (m.lookup k) := by
  induction entries generalizing m with
  | nil => rfl
  | cons e entries ih =>
    obtain ⟨he, hrest⟩ := List.nodup_cons.1 hnodup
    rw [List.foldl_cons, ih hrest, List.lookup_cons]
    by_cases hk : k = e.1
    · subst hk
      have hnone : entries.lookup e.1 = none := by
        rw [List.lookup_eq_none_iff]
        intro p hp
        rw [bne_iff_ne]
        intro heq
        exact he (heq ▸ List.mem_map_of_mem hp)
      rw [hnone, AList.lookup_insert]
      simp
    · have hne : (k == e.1) = false := by simpa using hk
      rw [hne, AList.lookup_insert_ne hk]

theorem entries_keys {s : FirstSeenStore} (hs : Consistent s) : s.entries.map Prod.fst = s.order := by
  have hall : ∀ order : List Text, (∀ k ∈ order, k ∈ s.map) →
      (order.filterMap fun k => (s.map.lookup k).map fun v => (k, v)).map Prod.fst = order := by
    intro order
    induction order with
    | nil => intro _; rfl
    | cons k order ih =>
      intro h
      obtain ⟨v, hv⟩ := Option.isSome_iff_exists.1 (AList.lookup_isSome.2 (h k List.mem_cons_self))
      rw [List.filterMap_cons, hv, Option.map_some, List.map_cons, ih fun k hk => h k (List.mem_cons_of_mem _ hk)]
  exact hall s.order fun k hk => (hs.same k).2 hk

theorem entries_lookup {s : FirstSeenStore} (hs : Consistent s) (k : Text) : s.entries.lookup k = s.map.lookup k := by
  have hall : ∀ order : List Text,
      (order.filterMap fun k => (s.map.lookup k).map fun v => (k, v)).lookup k = if k ∈ order then s.map.lookup k else none := by
    intro order
    induction order with
    | nil => rfl
    | cons k' order ih =>
      rw [List.filterMap_cons]
      by_cases hk : k = k'
      · subst hk
        cases hv : s.map.lookup k with
        | none => rw [Option.map_none, ih, hv]; simp
        | some v => simp
      · have hne : (k == k') = false := by simpa using hk
        cases hv : s.map.lookup k' with
        | none => rw [Option.map_none, ih]; simp [hk]
        | some v => rw [Option.map_some, List.lookup_cons, hne, ih]; simp [hk]
  rw [FirstSeenStore.entries, hall s.order]
  split_ifs with hk
  · rfl
  · rw [← hs.same, ← AList.lookup_eq_none] at hk
    exact hk.symm

/-- a store that is read from what another one wrote -/
theorem openAt_entries {s : FirstSeenStore} (hs : Consistent s) :
    Alike (.openAt s.cap (.persisted s.entries)) s := by
  have hopen : FirstSeenStore.openAt s.cap (.persisted s.entries) =
      ⟨s.cap, fill s.entries, s.entries.map Prod.fst, false⟩ := rfl
  rw [hopen]
  refine ⟨rfl, entries_keys hs, ?_⟩
  intro k
  have hnodup : (s.entries.map Prod.fst).Nodup := by
    rw [entries_keys hs]
    exact hs.nodup
  change (fill s.entries).lookup k = s.map.lookup k
  rw [fill, lookup_foldl hnodup, entries_lookup hs, AList.lookup_empty, Option.or_none]

theorem Alike.consistent {s s' : FirstSeenStore} (h : Alike s s') (hs : Consistent s') : Consistent s := by
  refine ⟨?_, ?_, ?_⟩
  · intro k
    rw [h.mem k, h.order, hs.same]
  · rw [h.order]
    exact hs.nodup
  · rw [h.order, h.cap]
    exact hs.fits

/-! ## The most recent identities -/

/-- a mark that recency and insertion order treat alike: its key belongs to no other of the recent identities, and if it
drops a key, that is the least recent one's -/
def Meets (w : World) : Op → Prop
  | .mark user ip _ =>
    let r := recent w.store.cap w.marked
    (∀ x ∈ r, x.key = makeKey user ip → x = .pair user ip) ∧
      (.pair user ip ∉ r → r.length = w.store.cap → w.store.order.head? = r.getLast?.map Identity.key)
  | .flush _ | .restart => True

instance (w : World) (op : Op) : Decidable (Meets w op) := by
  cases op <;> unfold Meets <;> infer_instance

structure Inv (cap : ℕ) (w : World) : Prop where
  capacity : w.store.cap = cap
  consistent : Consistent w.store
  holds : ((recent cap w.marked).map Identity.key).Perm w.store.order
  saved : w.store.dirty = false → Alike (.openAt cap w.file) w.store

variable {cap : ℕ} {w : World}

/-- an identity whose key is no other's is held exactly if it is recent -/
theorem Inv.held (h : Inv cap w) {user ip : Text}
    (hapart : ∀ x ∈ recent cap w.marked, x.key = makeKey user ip → x = .pair user ip) :
    makeKey user ip ∈ w.store.map ↔ .pair user ip ∈ recent cap w.marked := by
  rw [h.consistent.same, ← h.holds.mem_iff, List.mem_map]
  constructor
  · rintro ⟨x, hx, hkey⟩
    rw [← hapart x hx hkey]
    exact hx
  · intro hmem
    exact ⟨_, hmem, rfl⟩

theorem Inv.length (h : Inv cap w) : w.store.order.length = (recent cap w.marked).length := by
  rw [← h.holds.length_eq, List.length_map]

/-- a mark of an identity that is held -/
theorem Inv.hit (hcap : 1 ≤ cap) (h : Inv cap w) {x : Identity} (hx : x ∈ recent cap w.marked) :
    Inv cap { w with marked := x :: w.marked } := by
  refine ⟨h.capacity, h.consistent, ?_, h.saved⟩
  refine List.Perm.trans ?_ h.holds
  rw [recent_hit hcap hx, filter_ne (nodup_recent _ _)]
  exact (List.perm_cons_erase hx).symm.map _

/-- a mark of another identity, while there is room -/
theorem Inv.room (hcap : 1 ≤ cap) (h : Inv cap w) {user ip : Text} {ts : ℤ} (hmem : makeKey user ip ∉ w.store.map)
    (hnew : .pair user ip ∉ recent cap w.marked) (hroom : w.store.order.length < w.store.cap) :
    Inv cap (w.step (.mark user ip ts)) := by
  have hfresh : makeKey user ip ∉ w.store.order := fun ho => hmem ((h.consistent.same _).2 ho)
  have hlength := h.length
  have hcapacity := h.capacity
  rw [World.step, w.store.mark_room h.consistent user ip ts hmem hroom]
  refine ⟨hcapacity, ⟨?_, ?_, ?_⟩, ?_, fun hdirty => Bool.noConfusion hdirty⟩
  · intro k
    rw [AList.mem_insert, h.consistent.same, List.mem_append, List.mem_singleton, or_comm]
  · rw [List.nodup_append_comm]
    exact List.nodup_cons.2 ⟨hfresh, h.consistent.nodup⟩
  · rw [List.length_append]
    exact hroom
  · rw [recent_miss hcap hnew, List.take_of_length_le (by omega), List.map_cons]
    calc makeKey user ip :: (recent cap w.marked).map Identity.key
        ~ makeKey user ip :: w.store.order := h.holds.cons _
      _ ~ w.store.order ++ [makeKey user ip] := (List.perm_append_singleton _ _).symm

/-- a mark of another identity in a full store, which drops the least recent one -/
theorem Inv.full (hcap : 1 ≤ cap) (h : Inv cap w) {user ip : Text} {ts : ℤ} (hmem : makeKey user ip ∉ w.store.map)
    (hnew : .pair user ip ∉ recent cap w.marked) (hfull : w.store.order.length = w.store.cap)
    (hoverflow : w.store.order.head? = (recent cap w.marked).getLast?.map Identity.key) :
    Inv cap (w.step (.mark user ip ts)) := by
  have hfresh : makeKey user ip ∉ w.store.order := fun ho => hmem ((h.consistent.same _).2 ho)
  have hlength := h.length
  have hcapacity := h.capacity
  obtain ⟨old, rest, horder⟩ : ∃ old rest, w.store.order = old :: rest :=
    List.exists_cons_of_length_pos (by omega)
  obtain ⟨r, x, hr⟩ := (List.eq_nil_or_concat' (recent cap w.marked)).resolve_left
    (List.ne_nil_of_length_pos (by omega))
  have hold : old = x.key := by
    rw [horder, hr] at hoverflow
    simpa using hoverflow
  have hnodup := h.consistent.nodup
  rw [horder] at hnodup hfresh
  obtain ⟨hnotin, hrest⟩ := List.nodup_cons.1 hnodup
  rw [List.mem_cons, not_or] at hfresh
  have hlen : rest.length + 1 = w.store.cap := by rw [← hfull, horder, List.length_cons]
  rw [World.step, w.store.mark_full h.consistent user ip ts hmem horder hfull]
  refine ⟨hcapacity, ⟨?_, ?_, ?_⟩, ?_, fun hdirty => Bool.noConfusion hdirty⟩
  · intro k
    rw [AList.mem_erase, AList.mem_insert, h.consistent.same, horder, List.mem_cons, List.mem_append, List.mem_singleton]
    constructor
    · rintro ⟨hne, rfl | rfl | hk⟩
      · exact Or.inr rfl
      · exact absurd rfl hne
      · exact Or.inl hk
    · rintro (hk | rfl)
      · exact ⟨fun heq => hnotin (heq ▸ hk), Or.inr (Or.inr hk)⟩
      · exact ⟨hfresh.1, Or.inl rfl⟩
  · rw [List.nodup_append_comm]
    exact List.nodup_cons.2 ⟨hfresh.2, hrest⟩
  · rw [List.length_append]
    exact hlen.le
  · have htake : (recent cap w.marked).take (cap - 1) = r := by
      rw [hr]
      apply List.take_left'
      have : (recent cap w.marked).length = r.length + 1 := by rw [hr, List.length_append]; rfl
      omega
    have hkeys : (r.map Identity.key).Perm rest := by
      have hholds := h.holds
      rw [hr, horder, List.map_append, hold] at hholds
      exact (((List.perm_append_singleton _ _).symm.trans hholds).cons_inv)
    rw [recent_miss hcap hnew, htake, List.map_cons]
    calc makeKey user ip :: r.map Identity.key
        ~ makeKey user ip :: rest := hkeys.cons _
      _ ~ rest ++ [makeKey user ip] := (List.perm_append_singleton _ _).symm

theorem Inv.mark (hcap : 1 ≤ cap) (h : Inv cap w) {user ip : Text} {ts : ℤ} (hmeets : Meets w (.mark user ip ts)) :
    Inv cap (w.step (.mark user ip ts)) := by
  obtain ⟨hapart, hoverflow⟩ := hmeets
  rw [h.capacity] at hapart hoverflow
  have hheld := h.held hapart
  by_cases hmem : makeKey user ip ∈ w.store.map
  · rw [World.step, w.store.mark_known _ _ _ hmem]
    exact h.hit hcap (hheld.1 hmem)
  · have hnew : .pair user ip ∉ recent cap w.marked := fun hr => hmem (hheld.2 hr)
    by_cases hroom : w.store.order.length < w.store.cap
    · exact h.room hcap hmem hnew hroom
    · have hfull : w.store.order.length = w.store.cap := le_antisymm h.consistent.fits (not_lt.1 hroom)
      exact h.full hcap hmem hnew hfull (hoverflow hnew (by rw [← h.length, hfull, h.capacity]))

/-! ## Flushes and new processes -/

/-- after a flush that succeeds, the file holds the store -/
theorem Inv.flushed (h : Inv cap w) :
    Alike (.openAt cap (w.store.flush w.file false).2.1) w.store := by
  rw [FirstSeenStore.flush]
  by_cases hdirty : w.store.dirty = false
  · rw [if_pos hdirty]
    exact h.saved hdirty
  · rw [if_neg hdirty, ← h.capacity]
    exact openAt_entries h.consistent

theorem Inv.flush (h : Inv cap w) (fails : Bool) : Inv cap (w.step (.flush fails)) := by
  have hflushed := h.flushed
  rw [World.step]
  by_cases hdirty : w.store.dirty = false
  · have hsame : w.store.flush w.file fails = (w.store, w.file, true) := if_pos hdirty
    rw [hsame]
    exact h
  · cases fails with
    | true =>
      have hsame : w.store.flush w.file true = (w.store, w.file, false) := if_neg hdirty
      rw [hsame]
      exact h
    | false =>
      rw [FirstSeenStore.flush, if_neg hdirty] at hflushed ⊢
      refine ⟨h.capacity, ⟨h.consistent.same, h.consistent.nodup, h.consistent.fits⟩, h.holds, ?_⟩
      intro _
      exact ⟨hflushed.cap, hflushed.order, hflushed.lookup⟩

theorem Inv.restart (h : Inv cap w) : Inv cap (w.step .restart) := by
  have hflushed := h.flushed
  rw [World.step, h.capacity]
  refine ⟨?_, hflushed.consistent h.consistent, ?_, ?_⟩
  · rw [hflushed.cap, h.capacity]
  · rw [hflushed.order]
    exact h.holds
  · intro _
    exact ⟨rfl, rfl, fun _ => rfl⟩

/-! ## Runs -/

/-- the file has no repeated and no surplus keys -/
structure FileFits (cap : ℕ) (file : File) : Prop where
  nodup : (FirstSeenStore.openAt cap file).order.Nodup
  fits : (FirstSeenStore.openAt cap file).order.length ≤ cap

theorem mem_fill (entries : Entries) (k : Text) : k ∈ fill entries ↔ k ∈ entries.map Prod.fst := by
  have hall : ∀ m : Stamps, k ∈ entries.foldl (fun map e => map.insert e.1 e.2) m ↔ k ∈ m ∨ k ∈ entries.map Prod.fst := by
    induction entries with
    | nil => intro m; simp
    | cons e entries ih =>
      intro m
      rw [List.foldl_cons, ih, AList.mem_insert, List.map_cons, List.mem_cons]
      tauto
  rw [fill, hall]
  simp

theorem openAt_same (cap : ℕ) (file : File) (k : Text) :
    k ∈ (FirstSeenStore.openAt cap file).map ↔ k ∈ (FirstSeenStore.openAt cap file).order := by
  rw [FirstSeenStore.openAt]
  cases file with
  | missing | empty | unreadable | corrupt => simp [loadFrom]
  | persisted entries => exact mem_fill entries k

theorem openAt_cap (cap : ℕ) (file : File) :
    (FirstSeenStore.openAt cap file).cap = cap ∧ (FirstSeenStore.openAt cap file).dirty = false := by
  rw [FirstSeenStore.openAt]
  split <;> exact ⟨rfl, rfl⟩

theorem Inv.start {file : File} (h : FileFits cap file) : Inv cap (.start cap file) := by
  obtain ⟨hcapacity, -⟩ := openAt_cap cap file
  have hnodup : (((FirstSeenStore.openAt cap file).order.map identityOf).reverse).Nodup :=
    List.nodup_reverse.2 (h.nodup.map identityOf_injective)
  have hlength : (((FirstSeenStore.openAt cap file).order.map identityOf).reverse).length ≤ cap := by
    rw [List.length_reverse, List.length_map]
    exact h.fits
  refine ⟨hcapacity, ⟨openAt_same cap file, h.nodup, ?_⟩, ?_, fun _ => ⟨rfl, rfl, fun _ => rfl⟩⟩
  · change _ ≤ (FirstSeenStore.openAt cap file).cap
    rw [hcapacity]
    exact h.fits
  · rw [World.start, recent_of_nodup hnodup hlength, List.map_reverse, List.map_map]
    have hkeys : Identity.key ∘ identityOf = id := funext key_identityOf
    rw [hkeys, List.map_id]
    exact List.reverse_perm _

theorem Inv.step (hcap : 1 ≤ cap) (h : Inv cap w) {op : Op} (hmeets : Meets w op) : Inv cap (w.step op) := by
  cases op with
  | mark user ip ts => exact h.mark hcap hmeets
  | flush fails => exact h.flush fails
  | restart => exact h.restart

/-- a mark answers `true` exactly for an identity that is not among the `cap` most recent ones -/
def AnswersByRecency (w : World) : Op → Prop
  | .mark user ip ts => (w.store.mark user ip ts).2 = true ↔ .pair user ip ∉ recent w.store.cap w.marked
  | .flush _ | .restart => True

instance (w : World) (op : Op) : Decidable (AnswersByRecency w op) := by
  cases op <;> unfold AnswersByRecency <;> infer_instance

/-- a process that opens the file after a flush answers every sequence of marks like this one -/
def Reopens (w : World) : Prop :=
  ∀ marks, (FirstSeenStore.openAt w.store.cap (w.store.flush w.file false).2.1).answers marks = w.store.answers marks

/-- **The registry.** In every run of marks that meet the condition, from a file that fits, every mark answers by recency;
and the state that the run reaches is consistent and can be reopened. -/
theorem lru_store {cap : ℕ} (hcap : 1 ≤ cap) {file : File} (hfile : FileFits cap file) {ops : List Op}
    (h : Along World.step Meets (.start cap file) ops) :
    Along World.step AnswersByRecency (.start cap file) ops ∧
      Consistent (runs World.step (.start cap file) ops).store ∧
      Reopens (runs World.step (.start cap file) ops) := by
  have hstart := Inv.start hfile
  have hrun : Inv cap (runs World.step (.start cap file) ops) :=
    h.invariant (fun w op hw hm => hw.step hcap hm) hstart
  refine ⟨?_, hrun.consistent, ?_⟩
  · refine Along.of_invariant (I := Inv cap) (fun w op hw hm => hw.step hcap hm) ?_ hstart h
    intro w op hw hm
    cases op with
    | mark user ip ts =>
      have hapart := hm.1
      rw [hw.capacity] at hapart
      rw [AnswersByRecency, FirstSeenStore.mark_answer, hw.held hapart, hw.capacity]
    | flush fails => trivial
    | restart => trivial
  · intro marks
    rw [hrun.capacity]
    exact hrun.flushed.answers marks

def admin (ts : ℤ) : Op := .mark "root".toList "192.0.2.1".toList ts

def stranger (ip : String) (ts : ℤ) : Op := .mark "guest".toList ip.toList ts

theorem lru_store_two :
    Along World.step AnswersByRecency (.start 2 .missing)
        [admin 1, .flush true, stranger "192.0.2.2" 2, .restart, stranger "192.0.2.3" 3, stranger "192.0.2.3" 4] ∧
      Consistent (runs World.step (.start 2 .missing)
        [admin 1, .flush true, stranger "192.0.2.2" 2, .restart, stranger "192.0.2.3" 3, stranger "192.0.2.3" 4]).store ∧
      Reopens (runs World.step (.start 2 .missing)
        [admin 1, .flush true, stranger "192.0.2.2" 2, .restart, stranger "192.0.2.3" 3, stranger "192.0.2.3" 4]) :=
  lru_store (by decide) ⟨by decide, by decide⟩ (by decide +kernel)

/-- the administrator is forgotten although only one other identity was marked since; a surplus file stays over capacity;
two pairs share a key -/
theorem recency_fails :
    ¬ Along World.step AnswersByRecency (.start 2 .missing)
        [admin 1, stranger "192.0.2.2" 2, admin 3, stranger "192.0.2.3" 4, admin 5] ∧
      ¬ Consistent (runs World.step (.start 1 (.persisted [("guest\x00192.0.2.2".toList, 1), ("root\x00192.0.2.1".toList, 2)]))
        [admin 3]).store ∧
      ¬ Along World.step AnswersByRecency (.start 2 .missing)
        [.mark "a\x00b".toList "c".toList 1, .mark "a".toList "b\x00c".toList 2] := by
  refine ⟨by decide +kernel, ?_, by decide +kernel⟩
  intro h
  exact absurd h.fits (by decide +kernel)

end ServerBee.FirstSeen
