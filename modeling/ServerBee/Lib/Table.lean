/-
Tables with a unique key.

A table is a list of rows, no two of which have the same key. `get` reads by key; `update` sets columns of the rows that
a condition selects, and may not change a key; `insert` is refused when the key is taken (a UNIQUE constraint); `delete`
drops rows. Each operation has a membership lemma and a lookup lemma, and proofs about tables use only these.
-/
import Mathlib.Tactic

namespace ServerBee.Lib

structure Table {κ ρ : Type} (key : ρ → κ) where
  rows : List ρ
  unique : (rows.map key).Nodup

namespace Table

variable {κ ρ : Type} {key : ρ → κ}

instance : Membership ρ (Table key) := ⟨fun t r => r ∈ t.rows⟩

theorem mem_rows {t : Table key} {r : ρ} : r ∈ t.rows ↔ r ∈ t := Iff.rfl

/-- a row is determined by its key -/
theorem mem_inj {t : Table key} {r r' : ρ} (hr : r ∈ t) (hr' : r' ∈ t) (hk : key r = key r') : r = r' :=
  List.inj_on_of_nodup_map t.unique hr hr' hk

instance : EmptyCollection (Table key) := ⟨⟨[], List.nodup_nil⟩⟩

@[simp] theorem not_mem_empty (r : ρ) : r ∉ (∅ : Table key) := List.not_mem_nil

/-! ## Update and delete -/

/-- UPDATE .. SET f WHERE p -/
def update (t : Table key) (p : ρ → Bool) (f : ρ → ρ) (hf : ∀ r, p r = true → key (f r) = key r) :
    Table key where
  rows := t.rows.map fun r => if p r then f r else r
  unique := by
    have hkeys : (t.rows.map fun r => if p r then f r else r).map key = t.rows.map key := by
      rw [List.map_map]
      refine List.map_congr_left fun r _ => ?_
      simp only [Function.comp_apply]
      split_ifs with hp
      · exact hf r hp
      · rfl
    rw [hkeys]
    exact t.unique

/-- DELETE WHERE p -/
def delete (t : Table key) (p : ρ → Bool) : Table key where
  rows := t.rows.filter fun r => !p r
  unique := t.unique.sublist (List.filter_sublist.map key)

theorem mem_update {t : Table key} {p : ρ → Bool} {f : ρ → ρ} (hf : ∀ r, p r = true → key (f r) = key r)
    {r' : ρ} : r' ∈ t.update p f hf ↔ ∃ r ∈ t, (if p r then f r else r) = r' := List.mem_map

@[simp] theorem mem_delete {t : Table key} {p : ρ → Bool} {r : ρ} : r ∈ t.delete p ↔ r ∈ t ∧ p r = false := by
  simp only [← mem_rows, delete, List.mem_filter, Bool.not_eq_true']

/-! ## Counting -/

theorem nodup_rows (t : Table key) : t.rows.Nodup := List.Nodup.of_map key t.unique

theorem countP_le {t t' : Table key} {p q : ρ → Bool} (h : ∀ r ∈ t, p r = true → r ∈ t' ∧ q r = true) :
    t.rows.countP p ≤ t'.rows.countP q := by
  rw [List.countP_eq_length_filter, List.countP_eq_length_filter]
  refine (List.subperm_of_subset (t.nodup_rows.filter p) fun r hr => ?_).length_le
  obtain ⟨hr, hp⟩ := List.mem_filter.1 hr
  exact List.mem_filter.2 (h r hr hp)

theorem countP_lt {t t' : Table key} {p q : ρ → Bool} (h : ∀ r ∈ t, p r = true → r ∈ t' ∧ q r = true) {r : ρ}
    (hr : r ∈ t') (hq : q r = true) (hnew : r ∉ t) : t.rows.countP p < t'.rows.countP q := by
  rw [List.countP_eq_length_filter, List.countP_eq_length_filter]
  have hnodup : (r :: t.rows.filter p).Nodup :=
    List.nodup_cons.2 ⟨fun hmem => hnew (List.mem_filter.1 hmem).1, t.nodup_rows.filter p⟩
  refine (List.subperm_of_subset hnodup fun r' hr' => ?_).length_le
  rcases List.mem_cons.1 hr' with rfl | hr'
  · exact List.mem_filter.2 ⟨hr, hq⟩
  · obtain ⟨hr', hp⟩ := List.mem_filter.1 hr'
    exact List.mem_filter.2 (h r' hr' hp)

/-! ## Lookup and insert -/

variable [DecidableEq κ]

/-- SELECT .. WHERE key = k -/
def get (t : Table key) (k : κ) : Option ρ := t.rows.find? fun r => key r = k

@[simp] theorem get_empty (k : κ) : (∅ : Table key).get k = none := rfl

theorem get_eq_some {t : Table key} {k : κ} {r : ρ} : t.get k = some r ↔ r ∈ t ∧ key r = k := by
  constructor
  · intro h
    exact ⟨List.mem_of_find?_eq_some h, by simpa using List.find?_some h⟩
  · rintro ⟨hr, rfl⟩
    cases h : t.get (key r) with
    | none =>
      have hn := List.find?_eq_none.1 h r hr
      simp at hn
    | some r' =>
      have hr' : r' ∈ t := List.mem_of_find?_eq_some h
      have hk : key r' = key r := by simpa using List.find?_some h
      rw [mem_inj hr' hr hk]

theorem get_key {t : Table key} {r : ρ} (hr : r ∈ t) : t.get (key r) = some r := get_eq_some.2 ⟨hr, rfl⟩

theorem get_eq_none {t : Table key} {k : κ} : t.get k = none ↔ ∀ r ∈ t, key r ≠ k := by
  simp only [get, List.find?_eq_none, decide_eq_true_eq, ne_eq, mem_rows]

theorem get_update {t : Table key} {p : ρ → Bool} {f : ρ → ρ} (hf : ∀ r, p r = true → key (f r) = key r)
    {k : κ} : (t.update p f hf).get k = (t.get k).map fun r => if p r then f r else r := by
  have hkey : ∀ r, key (if p r then f r else r) = key r := by
    intro r
    split_ifs with hp
    · exact hf r hp
    · rfl
  cases h : t.get k with
  | none =>
    refine get_eq_none.2 fun r' hr' hk => ?_
    obtain ⟨r, hr, rfl⟩ := (mem_update hf).1 hr'
    exact get_eq_none.1 h r hr ((hkey r).symm.trans hk)
  | some r =>
    obtain ⟨hr, rfl⟩ := get_eq_some.1 h
    exact get_eq_some.2 ⟨(mem_update hf).2 ⟨r, hr, rfl⟩, hkey r⟩

theorem get_delete {t : Table key} {p : ρ → Bool} {k : κ} :
    (t.delete p).get k = (t.get k).filter fun r => !p r := by
  cases h : t.get k with
  | none => exact get_eq_none.2 fun r hr => get_eq_none.1 h r (mem_delete.1 hr).1
  | some r =>
    obtain ⟨hr, rfl⟩ := get_eq_some.1 h
    cases hp : p r with
    | false =>
      simp only [Option.filter_some, hp, Bool.not_false, if_true]
      exact get_key (mem_delete.2 ⟨hr, hp⟩)
    | true =>
      simp only [Option.filter_some, hp, Bool.not_true, Bool.false_eq_true, if_false]
      refine get_eq_none.2 fun r' hr' hk => ?_
      obtain ⟨hr', hp'⟩ := mem_delete.1 hr'
      rw [mem_inj hr' hr hk, hp] at hp'
      cases hp'

/-- UPDATE of all columns of the row with the key of `r` -/
def set (t : Table key) (r : ρ) : Table key :=
  t.update (fun r' => key r' = key r) (fun _ => r) fun _ h => (of_decide_eq_true h).symm

theorem mem_set {t : Table key} {r r' : ρ} (h : r' ∈ t.set r) : r' = r ∨ r' ∈ t := by
  obtain ⟨old, hold, rfl⟩ := (mem_update _).1 h
  split_ifs
  · exact Or.inl rfl
  · exact Or.inr hold

theorem get_set {t : Table key} {r : ρ} {k : κ} :
    (t.set r).get k = if k = key r then (t.get k).map fun _ => r else t.get k := by
  rw [set, get_update]
  cases h : t.get k with
  | none => simp
  | some r' =>
    obtain ⟨-, rfl⟩ := get_eq_some.1 h
    simp only [Option.map_some, decide_eq_true_eq]
    split_ifs <;> rfl

/-- INSERT, refused when the key is taken -/
def insert (t : Table key) (r : ρ) : Option (Table key) :=
  if h : t.get (key r) = none then
    some {
      rows := t.rows ++ [r]
      unique := by
        rw [List.map_append, List.map_singleton, List.nodup_append]
        refine ⟨t.unique, List.nodup_singleton _, fun k hk k' hk' => ?_⟩
        obtain ⟨r', hr', rfl⟩ := List.mem_map.1 hk
        rw [List.mem_singleton.1 hk']
        exact get_eq_none.1 h r' hr' }
  else none

theorem insert_eq_none {t : Table key} {r : ρ} : t.insert r = none ↔ (t.get (key r)).isSome = true := by
  simp only [insert, Option.isSome_iff_ne_none]
  split_ifs with h
  · simp [h]
  · simp [h]

theorem mem_insert {t t' : Table key} {r r' : ρ} (h : t.insert r = some t') : r' ∈ t' ↔ r' ∈ t ∨ r' = r := by
  simp only [insert] at h
  split_ifs at h
  cases h
  simp only [← mem_rows, List.mem_append, List.mem_singleton]

theorem insert_fresh {t t' : Table key} {r : ρ} (h : t.insert r = some t') : t.get (key r) = none := by
  simp only [insert] at h
  split_ifs at h with hfree
  exact hfree

theorem get_insert {t t' : Table key} {r : ρ} {k : κ} (h : t.insert r = some t') :
    t'.get k = if k = key r then some r else t.get k := by
  split_ifs with hk
  · subst hk
    exact get_key ((mem_insert h).2 (Or.inr rfl))
  · cases hg : t.get k with
    | none =>
      refine get_eq_none.2 fun r' hr' hk' => ?_
      rcases (mem_insert h).1 hr' with hr' | rfl
      · exact get_eq_none.1 hg r' hr' hk'
      · exact hk hk'.symm
    | some r' =>
      obtain ⟨hr', rfl⟩ := get_eq_some.1 hg
      exact get_key ((mem_insert h).2 (Or.inl hr'))

/-- a sum over the rows, when one row is replaced -/
theorem sum_map_replace {l : List ρ} (hl : (l.map key).Nodup) (f : ρ → ρ) (g : ρ → ℤ) {r : ρ} (hr : r ∈ l) :
    ((l.map fun x => if key x = key r then f x else x).map g).sum = (l.map g).sum + (g (f r) - g r) := by
  induction l with
  | nil => cases hr
  | cons a l ih =>
    rw [List.map_cons, List.nodup_cons] at hl
    rcases List.mem_cons.1 hr with rfl | hr
    · have hrest : (l.map fun x => if key x = key r then f x else x) = l := by
        conv_rhs => rw [← List.map_id l]
        refine List.map_congr_left fun x hx => if_neg fun heq => hl.1 ?_
        exact heq ▸ List.mem_map_of_mem hx
      simp only [List.map_cons, if_true, hrest, List.sum_cons]
      ring
    · have hne : key a ≠ key r := fun heq => hl.1 (heq ▸ List.mem_map_of_mem hr)
      simp only [List.map_cons, if_neg hne, List.sum_cons, ih hl.2 hr]
      ring

/-- UPDATE that may change keys, refused when two rows would have one key -/
def remap (t : Table key) (f : ρ → ρ) : Option (Table key) :=
  if h : ((t.rows.map f).map key).Nodup then some ⟨t.rows.map f, h⟩ else none

theorem mem_remap {t t' : Table key} {f : ρ → ρ} {r' : ρ} (h : t.remap f = some t') : r' ∈ t' ↔ ∃ r ∈ t, f r = r' := by
  unfold remap at h
  split_ifs at h
  cases h
  exact List.mem_map

end Table

end ServerBee.Lib
