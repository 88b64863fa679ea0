/-
Tasks that are spawned and kept by their handles in a map.

A task is un-aborted until its handle is aborted, and may end by itself. A handle that is dropped or overwritten does not
abort its task: in a sound map every task that still runs un-aborted has its handle under its id. `Frame id` says that nothing
happens to the task of an id, apart from tasks that end.
-/
import Mathlib.Tactic

namespace ServerBee.Lib

structure Spawned (κ : Type) where
  config : κ
  aborted : Bool
  ended : Bool
deriving DecidableEq, Repr

structure Handles (ι κ : Type) where
  tasks : List (ι × ℕ)
  /-- all tasks that were ever spawned -/
  spawned : List (Spawned κ)
deriving DecidableEq, Repr

namespace Handles

variable {ι κ : Type} [DecidableEq ι]

def empty : Handles ι κ := ⟨[], []⟩

def get (m : Handles ι κ) (id : ι) : Option ℕ := m.tasks.lookup id

/-- the handle is dropped -/
def forget (m : Handles ι κ) (id : ι) : Handles ι κ := { m with tasks := m.tasks.filter fun e => decide (e.1 ≠ id) }

/-- the handle is removed and its task aborted, if there is one -/
def stop (m : Handles ι κ) (id : ι) : Handles ι κ :=
  match m.get id with
  | some i => { m.forget id with spawned := m.spawned.modify i fun t => { t with aborted := true } }
  | none => m

/-- a task is spawned, and its handle is inserted -/
def start (idOf : κ → ι) (m : Handles ι κ) (config : κ) : Handles ι κ where
  tasks := (idOf config, m.spawned.length) :: (m.forget (idOf config)).tasks
  spawned := m.spawned ++ [⟨config, false, false⟩]

/-- these tasks end by themselves -/
def finish (m : Handles ι κ) (ended : List ℕ) : Handles ι κ :=
  { m with spawned := m.spawned.mapIdx fun i t => { t with ended := t.ended || ended.contains i } }

def isFinished (m : Handles ι κ) (i : ℕ) : Bool := m.spawned[i]?.any Spawned.ended

/-! ## Lookup -/

theorem get_forget_self (m : Handles ι κ) (id : ι) : (m.forget id).get id = none := by
  rw [get, List.lookup_eq_none_iff]
  intro e he
  have hne : e.1 ≠ id := of_decide_eq_true (List.mem_filter.1 he).2
  exact bne_iff_ne.2 hne.symm

theorem get_forget_of_ne (m : Handles ι κ) {id id' : ι} (h : id' ≠ id) : (m.forget id).get id' = m.get id' := by
  unfold get forget
  induction m.tasks with
  | nil => rfl
  | cons e tasks ih =>
    by_cases he : e.1 = id
    · have hne : (id' == e.1) = false := beq_false_of_ne (he ▸ h)
      rw [List.filter_cons_of_neg (by simpa using he), List.lookup_cons, hne]
      exact ih
    · rw [List.filter_cons_of_pos (by simpa using he), List.lookup_cons, List.lookup_cons]
      cases id' == e.1
      · exact ih
      · rfl

theorem get_start_self (idOf : κ → ι) (m : Handles ι κ) (config : κ) :
    (m.start idOf config).get (idOf config) = some m.spawned.length := by
  simp [get, start]

theorem get_start_of_ne (idOf : κ → ι) (m : Handles ι κ) {config : κ} {id : ι} (h : id ≠ idOf config) :
    (m.start idOf config).get id = m.get id := by
  rw [get, start, List.lookup_cons, beq_false_of_ne h]
  exact get_forget_of_ne m h

theorem get_stop_self (m : Handles ι κ) (id : ι) : (m.stop id).get id = none := by
  unfold stop
  cases h : m.get id with
  | none => exact h
  | some i => exact get_forget_self m id

theorem get_stop_of_ne (m : Handles ι κ) {id id' : ι} (h : id' ≠ id) : (m.stop id).get id' = m.get id' := by
  unfold stop
  cases m.get id with
  | none => rfl
  | some i => exact get_forget_of_ne m h

omit [DecidableEq ι] in
theorem spawned_finish (m : Handles ι κ) (ended : List ℕ) (i : ℕ) : (m.finish ended).spawned[i]? =
    m.spawned[i]?.map fun t => { t with ended := t.ended || ended.contains i } := List.getElem?_mapIdx

theorem spawned_stop (m : Handles ι κ) (id : ι) (i : ℕ) : (m.stop id).spawned[i]? =
    m.spawned[i]?.map fun t => if m.get id = some i then { t with aborted := true } else t := by
  unfold stop
  cases h : m.get id with
  | none => simp
  | some j =>
    simp only [List.getElem?_modify, Option.some.injEq]
    by_cases hij : j = i <;> simp [hij]

/-! ## Sound maps -/

structure Sound (idOf : κ → ι) (m : Handles ι κ) : Prop where
  held : ∀ id i, m.get id = some i → ∃ t, m.spawned[i]? = some t ∧ t.aborted = false ∧ idOf t.config = id
  kept : ∀ i t, m.spawned[i]? = some t → t.aborted = false → t.ended = false → m.get (idOf t.config) = some i

variable {idOf : κ → ι} {m : Handles ι κ}

theorem sound_empty : Sound idOf (empty : Handles ι κ) := by
  refine ⟨fun id i h => ?_, fun i t h => ?_⟩
  · cases h
  · cases h

theorem Sound.finish (h : Sound idOf m) (ended : List ℕ) : Sound idOf (m.finish ended) := by
  refine ⟨fun id i hget => ?_, fun i t ht haborted hended => ?_⟩
  · obtain ⟨t, ht, haborted, hid⟩ := h.held id i hget
    refine ⟨{ t with ended := t.ended || ended.contains i }, ?_, haborted, hid⟩
    rw [spawned_finish, ht, Option.map_some]
  · rw [spawned_finish] at ht
    obtain ⟨t', ht', rfl⟩ := Option.map_eq_some_iff.1 ht
    exact h.kept i t' ht' haborted (Bool.or_eq_false_iff.1 hended).1

theorem Sound.stop (h : Sound idOf m) (id : ι) : Sound idOf (m.stop id) := by
  refine ⟨fun id' i hget => ?_, fun i t ht haborted hended => ?_⟩
  · have hne : id' ≠ id := by
      rintro rfl
      rw [get_stop_self] at hget
      cases hget
    rw [get_stop_of_ne m hne] at hget
    obtain ⟨t, ht, haborted, hid⟩ := h.held id' i hget
    have hother : m.get id ≠ some i := by
      intro hsame
      obtain ⟨t', ht', -, hid'⟩ := h.held id i hsame
      cases ht.symm.trans ht'
      exact hne (hid.symm.trans hid')
    exact ⟨t, by rw [spawned_stop, ht, Option.map_some, if_neg hother], haborted, hid⟩
  · rw [spawned_stop] at ht
    obtain ⟨t', ht', rfl⟩ := Option.map_eq_some_iff.1 ht
    by_cases hself : m.get id = some i
    · rw [if_pos hself] at haborted
      cases haborted
    · rw [if_neg hself] at haborted hended ⊢
      have hget := h.kept i t' ht' haborted hended
      rw [get_stop_of_ne m, hget]
      rintro rfl
      exact hself hget

/-- the handle of a task that has ended can be dropped -/
theorem Sound.forget (h : Sound idOf m) {id : ι} (hended : ∀ i t, m.get id = some i → m.spawned[i]? = some t → t.ended = true) :
    Sound idOf (m.forget id) := by
  refine ⟨fun id' i hget => ?_, fun i t ht haborted hrunning => ?_⟩
  · have hne : id' ≠ id := by
      rintro rfl
      rw [get_forget_self] at hget
      cases hget
    rw [get_forget_of_ne m hne] at hget
    exact h.held id' i hget
  · have hget := h.kept i t ht haborted hrunning
    rw [get_forget_of_ne m, hget]
    rintro rfl
    rw [hended i t hget ht] at hrunning
    cases hrunning

theorem Sound.start (h : Sound idOf m) {config : κ} (hnone : m.get (idOf config) = none) : Sound idOf (m.start idOf config) := by
  refine ⟨fun id i hget => ?_, fun i t ht haborted hended => ?_⟩
  · by_cases hid : id = idOf config
    · rw [hid, get_start_self] at hget
      cases hget
      exact ⟨⟨config, false, false⟩, List.getElem?_concat_length, rfl, hid.symm⟩
    · rw [get_start_of_ne idOf m hid] at hget
      obtain ⟨t, ht, haborted, hid'⟩ := h.held id i hget
      have hlt := (List.getElem?_eq_some_iff.1 ht).1
      exact ⟨t, by rw [Handles.start, List.getElem?_append_left hlt, ht], haborted, hid'⟩
  · rw [Handles.start] at ht
    by_cases hlt : i < m.spawned.length
    · rw [List.getElem?_append_left hlt] at ht
      have hget := h.kept i t ht haborted hended
      rw [get_start_of_ne idOf m, hget]
      intro hid
      rw [hid, hnone] at hget
      cases hget
    · have hi : i = m.spawned.length := by
        have hbound := (List.getElem?_eq_some_iff.1 ht).1
        simp only [List.length_append, List.length_singleton] at hbound
        omega
      subst hi
      rw [List.getElem?_concat_length] at ht
      cases ht
      exact get_start_self idOf m config

/-! ## What an operation leaves as it is -/

variable {m' m'' : Handles ι κ} {ended ended' : List ℕ}

/-- no task is lost or changed, and only these tasks end -/
def Grows (ended : List ℕ) (m m' : Handles ι κ) : Prop :=
  ∀ i t, m.spawned[i]? = some t →
    ∃ t', m'.spawned[i]? = some t' ∧ t'.config = t.config ∧ (t'.ended = true → t.ended = true ∨ i ∈ ended)

/-- moreover the handle of `id` is the same, and no task was spawned for it -/
structure Frame (idOf : κ → ι) (id : ι) (ended : List ℕ) (m m' : Handles ι κ) : Prop where
  grows : Grows ended m m'
  get : m'.get id = m.get id
  fresh : ∀ i t, m'.spawned[i]? = some t → idOf t.config = id → i < m.spawned.length

omit [DecidableEq ι] in
theorem Grows.refl (m : Handles ι κ) : Grows ended m m :=
  fun _ t ht => ⟨t, ht, rfl, Or.inl⟩

omit [DecidableEq ι] in
theorem Grows.trans (h : Grows ended m m') (h' : Grows ended' m' m'') : Grows (ended ++ ended') m m'' := by
  intro i t ht
  obtain ⟨t', ht', hconfig, hended⟩ := h i t ht
  obtain ⟨t'', ht'', hconfig', hended'⟩ := h' i t' ht'
  refine ⟨t'', ht'', hconfig'.trans hconfig, fun hnow => ?_⟩
  rw [List.mem_append]
  rcases hended' hnow with hbefore | hmem
  · exact (hended hbefore).imp id Or.inl
  · exact Or.inr (Or.inr hmem)

omit [DecidableEq ι] in
/-- a task that runs before, and does not end, runs after -/
theorem Grows.running (h : Grows ended m m') {i : ℕ} {t : Spawned κ} (ht : m.spawned[i]? = some t) (hrun : t.ended = false)
    (hends : i ∉ ended) : ∃ t', m'.spawned[i]? = some t' ∧ t'.config = t.config ∧ t'.ended = false := by
  obtain ⟨t', ht', hconfig, hended⟩ := h i t ht
  refine ⟨t', ht', hconfig, Bool.eq_false_iff.2 fun hnow => ?_⟩
  rcases hended hnow with hbefore | hmem
  · rw [hrun] at hbefore
    cases hbefore
  · exact hends hmem

theorem Frame.refl (id : ι) (m : Handles ι κ) : Frame idOf id ended m m :=
  ⟨Grows.refl m, rfl, fun _ _ ht _ => (List.getElem?_eq_some_iff.1 ht).1⟩

theorem Frame.trans {id : ι} (h : Frame idOf id ended m m') (h' : Frame idOf id ended' m' m'') :
    Frame idOf id (ended ++ ended') m m'' := by
  refine ⟨h.grows.trans h'.grows, h'.get.trans h.get, fun i t ht hid => ?_⟩
  obtain ⟨t', ht'⟩ : ∃ t', m'.spawned[i]? = some t' := ⟨_, List.getElem?_eq_getElem (h'.fresh i t ht hid)⟩
  obtain ⟨t'', ht'', hconfig, -⟩ := h'.grows i t' ht'
  cases ht.symm.trans ht''
  exact h.fresh i t' ht' (hconfig ▸ hid)

theorem frame_finish (id : ι) (m : Handles ι κ) (ended : List ℕ) : Frame idOf id ended m (m.finish ended) := by
  refine ⟨fun i t ht => ?_, rfl, fun i t ht _ => ?_⟩
  · refine ⟨{ t with ended := t.ended || ended.contains i }, ?_, rfl, fun hended => ?_⟩
    · rw [spawned_finish, ht, Option.map_some]
    · simpa using hended
  · have hlt := (List.getElem?_eq_some_iff.1 ht).1
    simpa [finish] using hlt

theorem frame_forget {id id' : ι} (h : id' ≠ id) (m : Handles ι κ) : Frame idOf id' [] m (m.forget id) :=
  ⟨Grows.refl _, get_forget_of_ne m h, fun _ _ ht _ => (List.getElem?_eq_some_iff.1 ht).1⟩

theorem frame_stop {id id' : ι} (h : id' ≠ id) (m : Handles ι κ) : Frame idOf id' [] m (m.stop id) := by
  refine ⟨fun i t ht => ?_, get_stop_of_ne m h, fun i t ht _ => ?_⟩
  · rw [spawned_stop, ht, Option.map_some]
    refine ⟨_, rfl, ?_⟩
    split
    · exact ⟨rfl, Or.inl⟩
    · exact ⟨rfl, Or.inl⟩
  · rw [spawned_stop] at ht
    obtain ⟨t', ht', -⟩ := Option.map_eq_some_iff.1 ht
    exact (List.getElem?_eq_some_iff.1 ht').1

theorem frame_start {id : ι} {config : κ} (h : id ≠ idOf config) (m : Handles ι κ) :
    Frame idOf id [] m (m.start idOf config) := by
  refine ⟨fun i t ht => ?_, get_start_of_ne idOf m h, fun i t ht hid => ?_⟩
  · have hlt := (List.getElem?_eq_some_iff.1 ht).1
    exact ⟨t, by rw [Handles.start, List.getElem?_append_left hlt, ht], rfl, Or.inl⟩
  · by_contra hge
    rw [Handles.start, List.getElem?_append_right (not_lt.1 hge)] at ht
    have hnew := List.mem_of_getElem? ht
    rw [List.mem_singleton.1 hnew] at hid
    exact h hid.symm

end Handles

end ServerBee.Lib
