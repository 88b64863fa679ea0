/-
Where an original is: in memory, in the table, or at the end of its way, and in one of them only.

The three places together are a permutation of the originals accepted so far. An original moves from one place to another in a
single step, so it meets at most one end; the authority of a decision is the one of its commit because the admission holds the
writer lock from its checks on.
-/
import Mathlib.Data.List.Perm.Basic
import ServerBee.Lib.Run
import ServerBee.Originals.Model

namespace ServerBee.Originals

open ServerBee.Lib

/-! ## Taking an original out of a list -/

/-- what is left besides the element with a key -/
theorem perm_cons_filter_ne {α β : Type} [DecidableEq β] {f : α → β} {l : List α} (h : (l.map f).Nodup) {a : α}
    (ha : a ∈ l) : l.Perm (a :: l.filter fun x => f x != f a) := by
  induction l with
  | nil => cases ha
  | cons x l ih =>
    rw [List.map_cons, List.nodup_cons] at h
    rcases List.mem_cons.1 ha with rfl | ha
    · have hrest : l.filter (fun x => f x != f a) = l := by
        refine List.filter_eq_self.2 fun y hy => ?_
        have hne : f y ≠ f a := fun heq => h.1 (heq ▸ List.mem_map_of_mem hy)
        simpa using hne
      simp [hrest]
    · have hne : f x ≠ f a := fun heq => h.1 (heq ▸ List.mem_map_of_mem ha)
      have hx : (f x != f a) = true := by simpa using hne
      rw [List.filter_cons, if_pos hx]
      exact ((ih h.2 ha).cons x).trans (List.Perm.swap a x _)

namespace St

variable {s : St}

/-- every place of an original -/
def places (s : St) : List Original := s.retained ++ s.originals ++ s.fates.map Prod.snd

end St

/-- the originals and their places -/
structure Sound (s : St) : Prop where
  ids : (s.accepted.map Original.id).Nodup
  places : s.places.Perm s.accepted
  /-- a row without an admission payload is one of an original at its end -/
  settled : ∀ id ∈ s.settled, ∃ fate ∈ s.fates, fate.2.id = id
  /-- the admission under way has the row of an original that the server's authority covers -/
  admitting : ∀ id ∈ s.admitting, ∃ o ∈ s.originals, o.id = id ∧
    o.authorityFingerprint.all (fun expected => s.authority o.serverId == some expected) = true
  decided : ∀ fate ∈ s.fates, ∀ authority, fate.1 = .decided authority →
    fate.2.authorityFingerprint.all (fun expected => authority == some expected) = true

namespace Sound

variable {s : St}

theorem nodup (h : Sound s) : (s.places.map Original.id).Nodup := (h.places.map Original.id).nodup_iff.2 h.ids

theorem nodup_parts (h : Sound s) : (s.retained.map Original.id).Nodup ∧ (s.originals.map Original.id).Nodup ∧
    (s.fates.map fun fate => fate.2.id).Nodup := by
  have hn := h.nodup
  rw [St.places, List.map_append, List.map_append, List.nodup_append, List.nodup_append, List.map_map] at hn
  exact ⟨hn.1.1, hn.1.2.1, hn.2.1⟩

theorem retained_not_pending (h : Sound s) {o o' : Original} (ho : o ∈ s.retained) (ho' : o' ∈ s.originals) :
    o.id ≠ o'.id := by
  have hn := h.nodup
  rw [St.places, List.map_append, List.map_append, List.nodup_append, List.nodup_append] at hn
  exact hn.1.2.2 _ (List.mem_map_of_mem ho) _ (List.mem_map_of_mem ho')

theorem live_not_fated (h : Sound s) {o : Original} (ho : o ∈ s.retained ++ s.originals) {fate : Fate × Original}
    (hf : fate ∈ s.fates) : o.id ≠ fate.2.id := by
  have hn := h.nodup
  rw [St.places, List.map_append, List.nodup_append] at hn
  exact hn.2.2 _ (List.mem_map_of_mem ho) _ (List.mem_map_of_mem (List.mem_map_of_mem hf))

theorem mem_accepted (h : Sound s) {o : Original} (ho : o ∈ s.retained ++ s.originals) : o ∈ s.accepted :=
  h.places.subset (List.mem_append_left _ ho)

/-- an id that was not drawn before -/
theorem draw (h : Sound s) {o : Original} (hu : s.unused o.id = true) : ((s.accepted ++ [o]).map Original.id).Nodup := by
  rw [List.map_append, List.nodup_append]
  refine ⟨h.ids, List.nodup_singleton _, ?_⟩
  intro i hi j hj
  obtain ⟨a, ha, rfl⟩ := List.mem_map.1 hi
  rw [List.map_singleton, List.mem_singleton] at hj
  rw [hj]
  simpa using List.all_eq_true.1 hu a ha

/-- the rows that are left when one goes -/
theorem originals_filter (h : Sound s) {o : Original} (ho : o ∈ s.originals) :
    s.originals.Perm (o :: (s.pending.filter fun row => row.original.id != o.id).map Row.original) := by
  have hp := perm_cons_filter_ne h.nodup_parts.2.1 ho
  have heq : s.originals.filter (fun x => x.id != o.id) =
      (s.pending.filter fun row => row.original.id != o.id).map Row.original := by
    rw [St.originals, List.filter_map]
    rfl
  rwa [heq] at hp

/-! ## Every step -/

theorem retainAgentEvent (h : Sound s) (o : Original) : Sound (s.retainAgentEvent o) := by
  unfold St.retainAgentEvent
  split
  · rename_i hu
    rw [Bool.and_eq_true] at hu
    refine ⟨h.draw hu.2, ?_, h.settled, h.admitting, h.decided⟩
    refine List.perm_iff_count.2 fun x => ?_
    have hx := h.places.count_eq x
    simp only [St.places, St.originals, List.count_append, List.count_cons, List.count_nil] at hx ⊢
    omega
  · exact h

/-- an original leaves the queue for another place, or for the end of the queue -/
theorem persistOriginal (h : Sound s) {o : Original} (ho : o ∈ s.retained) (commits : Bool) (maintenance : Option Bool) :
    Sound (s.persistOriginal o commits maintenance) := by
  have hp := perm_cons_filter_ne h.nodup_parts.1 ho
  -- no row has its id
  have hnew : (s.pending.any (·.original.id == o.id) || s.settled.contains o.id) = false := by
    by_contra hrow
    rw [Bool.not_eq_false, Bool.or_eq_true] at hrow
    rcases hrow with hrow | hrow
    · obtain ⟨row, hr, hid⟩ := List.any_eq_true.1 hrow
      exact h.retained_not_pending ho (List.mem_map_of_mem hr) (beq_iff_eq.1 hid).symm
    · obtain ⟨fate, hf, hid⟩ := h.settled o.id (by simpa using hrow)
      exact h.live_not_fated (List.mem_append_left _ ho) hf hid.symm
  unfold St.persistOriginal
  cases commits with
  | false =>
    simp only [Bool.not_false, if_true]
    refine ⟨h.ids, List.perm_iff_count.2 fun x => ?_, h.settled, h.admitting, h.decided⟩
    have hx := h.places.count_eq x
    have hc := hp.count_eq x
    simp only [St.places, St.originals, List.count_append, List.count_cons, List.count_nil] at hx hc ⊢
    omega
  | true =>
    simp only [hnew, Bool.not_true, Bool.false_eq_true, if_false]
    split
    · refine ⟨h.ids, List.perm_iff_count.2 fun x => ?_, ?_, h.admitting, ?_⟩
      · have hx := h.places.count_eq x
        have hc := hp.count_eq x
        simp only [St.places, St.originals, List.count_append, List.count_cons, List.count_nil, List.map_append, List.map_cons,
          List.map_nil] at hx hc ⊢
        omega
      · intro id hid
        obtain ⟨fate, hf, hfid⟩ := h.settled id hid
        exact ⟨fate, List.mem_append_left _ hf, hfid⟩
      · intro fate hf authority ha
        rcases List.mem_append.1 hf with hf | hf
        · exact h.decided fate hf authority ha
        · rw [List.mem_singleton.1 hf] at ha
          cases ha
    · refine ⟨h.ids, List.perm_iff_count.2 fun x => ?_, h.settled, ?_, h.decided⟩
      · have hx := h.places.count_eq x
        have hc := hp.count_eq x
        simp only [St.places, St.originals, List.count_append, List.count_cons, List.count_nil, List.map_append, List.map_cons,
          List.map_nil] at hx hc ⊢
        omega
      · intro id hid
        obtain ⟨o', ho', hp'⟩ := h.admitting id hid
        refine ⟨o', ?_, hp'⟩
        rw [St.originals, List.map_append]
        exact List.mem_append_left _ ho'

theorem recordEvent (h : Sound s) (o : Original) (commits : Bool) (maintenance : Option Bool) :
    Sound (s.recordEvent o commits maintenance) := by
  unfold St.recordEvent
  split
  · rename_i hu
    rw [Bool.and_eq_true] at hu
    refine ⟨h.draw (o := { o with authorityFingerprint := none }) hu.2, ?_, h.settled, ?_, h.decided⟩
    · refine List.perm_iff_count.2 fun x => ?_
      have hx := h.places.count_eq x
      simp only [St.places, St.originals, List.count_append, List.count_cons, List.count_nil, List.map_append, List.map_cons,
        List.map_nil] at hx ⊢
      omega
    · intro id hid
      obtain ⟨o', ho', hp'⟩ := h.admitting id hid
      refine ⟨o', ?_, hp'⟩
      rw [St.originals, List.map_append]
      exact List.mem_append_left _ ho'
  · exact h

/-- a row goes to its end -/
theorem remove (h : Sound s) {o : Original} (ho : o ∈ s.originals) (fate : Fate)
    (hfate : ∀ authority, fate = .decided authority →
      o.authorityFingerprint.all (fun expected => authority == some expected) = true)
    (settled : List String) (hsettled : ∀ id ∈ settled, id ∈ s.settled ∨ id = o.id) :
    Sound { s with
      pending := s.pending.filter fun row => row.original.id != o.id
      settled := settled
      admitting := none
      fates := s.fates ++ [(fate, o)] } := by
  refine ⟨h.ids, List.perm_iff_count.2 fun x => ?_, ?_, fun id hid => (by cases hid), ?_⟩
  · have hx := h.places.count_eq x
    have hc := (h.originals_filter ho).count_eq x
    simp only [St.places, St.originals, List.count_append, List.count_cons, List.count_nil, List.map_append, List.map_cons,
      List.map_nil] at hx hc ⊢
    omega
  · intro id hid
    rcases hsettled id hid with hid | rfl
    · obtain ⟨f, hf, hfid⟩ := h.settled id hid
      exact ⟨f, List.mem_append_left _ hf, hfid⟩
    · exact ⟨(fate, o), List.mem_append_right _ (List.mem_singleton.2 rfl), rfl⟩
  · intro f hf authority ha
    rcases List.mem_append.1 hf with hf | hf
    · exact h.decided f hf authority ha
    · rw [List.mem_singleton.1 hf] at ha ⊢
      exact hfate authority ha

end Sound

theorem find_original {s : St} {id : String} {row : Row} (h : s.pending.find? (·.original.id == id) = some row) :
    row.original ∈ s.originals ∧ row.original.id = id :=
  ⟨List.mem_map_of_mem (List.mem_of_find?_eq_some h), by simpa using List.find?_some h⟩

namespace Sound

variable {s : St}

theorem check (h : Sound s) (hl : s.admitting = none) (id : String) (rest : List String) (commits maintenance : Bool) :
    Sound (s.check id rest commits maintenance) := by
  have done : Sound { s with attempted := s.attempted ++ [id], batch := rest } :=
    ⟨h.ids, h.places, h.settled, h.admitting, h.decided⟩
  unfold St.check
  cases hf : s.pending.find? (·.original.id == id) with
  | none => simpa only [hf] using done
  | some row =>
    obtain ⟨ho, hid⟩ := find_original hf
    simp only [hf]
    split
    · split
      · have hr := done.remove ho .cancelled (fun authority ha => by cases ha) (s.settled ++ [row.original.id])
          fun i hi => by simpa using hi
        exact ⟨hr.ids, hr.places, hr.settled, fun i hi => (by rw [St.settle, hl] at hi; cases hi), hr.decided⟩
      · exact done
    · rename_i hvalid
      split
      · exact done
      · split
        · split
          · -- the rows have the same originals
            have hsame : ((s.pending.map fun row =>
                if row.original.id = id then { row with maintenanceAtAdmission := some maintenance } else row).map
                  Row.original) = s.originals := by
              rw [List.map_map]
              refine List.map_congr_left fun row _ => ?_
              simp only [Function.comp]
              split <;> rfl
            refine ⟨h.ids, ?_, h.settled, ?_, h.decided⟩
            · simpa only [St.places, St.setMaintenance, St.originals, hsame] using h.places
            · intro i hi
              simp only [St.setMaintenance, hl] at hi
              cases hi
          · exact done
        · refine ⟨h.ids, h.places, h.settled, fun i hi => ?_, h.decided⟩
          cases hi
          refine ⟨row.original, ho, hid, ?_⟩
          have hv : s.authorityValid row.original = true := by simpa [St.authorityValid] using hvalid
          cases hfp : row.original.authorityFingerprint with
          | none => rfl
          | some expected =>
            simp only [St.authorityValid, hfp, Option.all_some, Bool.and_eq_true] at hv ⊢
            exact hv.1

theorem decide (h : Sound s) {id : String} (ha : s.admitting = some id) (commits : Bool) : Sound (s.decide id commits) := by
  have done : Sound { s with batch := s.batch.tail, admitting := none } :=
    ⟨h.ids, h.places, h.settled, fun i hi => (by cases hi), h.decided⟩
  unfold St.decide
  cases hf : s.pending.find? (·.original.id == id) with
  | none => exact done
  | some row =>
    obtain ⟨ho, hid⟩ := find_original hf
    simp only
    split
    · -- the row is the one that was checked
      obtain ⟨o, ho', hid', hv⟩ := h.admitting id ha
      have heq : o = row.original := List.inj_on_of_nodup_map h.nodup_parts.2.1 ho' ho (hid'.trans hid.symm)
      subst heq
      refine done.remove ho _ (fun authority hd => ?_) _ (fun i hi => by simpa using hi)
      cases hd
      exact hv
    · exact done

theorem deleteEvent (h : Sound s) (hl : s.admitting = none) (id : String) : Sound (s.deleteEvent id) := by
  unfold St.deleteEvent
  cases hf : s.pending.find? (·.original.id == id) with
  | none => exact ⟨h.ids, h.places, fun i hi => h.settled i (List.mem_filter.1 hi).1, h.admitting, h.decided⟩
  | some row =>
    obtain ⟨ho, rfl⟩ := find_original hf
    have hr := h.remove ho .deleted (fun authority ha => by cases ha) s.settled fun i hi => .inl hi
    exact ⟨hr.ids, hr.places, hr.settled, fun i hi => (by rw [hl] at hi; cases hi), hr.decided⟩

theorem restart (h : Sound s) : Sound s.restart := by
  refine ⟨h.ids, List.perm_iff_count.2 fun x => ?_, ?_, fun i hi => (by cases hi), ?_⟩
  · have hx := h.places.count_eq x
    have hlost : (s.retained.map fun o => (Fate.lost, o)).map Prod.snd = s.retained := by simp [Function.comp_def]
    simp only [St.restart, St.places, St.originals, List.count_append, List.count_nil, List.map_append, hlost] at hx ⊢
    omega
  · intro i hi
    obtain ⟨f, hf, hfid⟩ := h.settled i hi
    exact ⟨f, List.mem_append_left _ hf, hfid⟩
  · intro f hf authority ha
    rcases List.mem_append.1 hf with hf | hf
    · exact h.decided f hf authority ha
    · obtain ⟨o, _, rfl⟩ := List.mem_map.1 hf
      cases ha

theorem step (h : Sound s) (op : Op) : Sound (Originals.step s op) := by
  have unlocked : ¬ s.locked = true → s.admitting = none := by
    intro hl
    simpa [St.locked] using hl
  cases op with
  | retain o => exact h.retainAgentEvent o
  | persist id commits maintenance =>
    simp only [Originals.step]
    split
    · exact h
    · cases hf : s.retained.find? (·.id == id) with
      | none => exact h
      | some o => exact h.persistOriginal (List.mem_of_find?_eq_some hf) commits maintenance
  | record o commits maintenance =>
    simp only [Originals.step]
    split
    · exact h
    · exact h.recordEvent o commits maintenance
  | scan =>
    simp only [Originals.step]
    split
    · exact h
    · exact ⟨h.ids, h.places, h.settled, h.admitting, h.decided⟩
  | check commits maintenance =>
    simp only [Originals.step]
    split
    · exact h
    · rename_i hl
      split
      · exact h
      · exact h.check (unlocked hl) _ _ commits maintenance
  | decide commits =>
    cases ha : s.admitting with
    | none => simpa [Originals.step, ha] using h
    | some id => simpa [Originals.step, ha] using h.decide ha commits
  | delete id =>
    simp only [Originals.step]
    split
    · exact h
    · rename_i hl
      exact h.deleteEvent (unlocked hl) id
  | authorize server authority =>
    simp only [Originals.step]
    split
    · exact h
    · rename_i hl
      refine ⟨h.ids, h.places, h.settled, fun i hi => ?_, h.decided⟩
      have hnone := unlocked hl
      rw [Option.mem_def, hnone] at hi
      cases hi
  | enable server capable => exact ⟨h.ids, h.places, h.settled, h.admitting, h.decided⟩
  | restart => exact h.restart

end Sound

theorem sound_start (authority : String → Option String) (capable : String → Bool) : Sound (start authority capable) := by
  refine ⟨List.nodup_nil, List.Perm.refl _, fun i hi => ?_, fun i hi => (by cases hi), fun f hf => ?_⟩
  · exact absurd hi List.not_mem_nil
  · exact absurd hf List.not_mem_nil

theorem sound_run (ops : List Op) {s : St} (h : Sound s) : Sound (runs step s ops) := by
  induction ops generalizing s with
  | nil => exact h
  | cons op ops ih => exact ih (h.step op)

/-- **Every original is accounted for.** In every run each original that was accepted is in exactly one place: retained in
memory, in the table with its payload, or at one end. So a rule decision is committed at most once for it, however often it was
tried; none is lost but with a process that had not written it; and a decision is committed only while the server's token is the
one that the agent showed. -/
theorem originals_accounted (authority : String → Option String) (capable : String → Bool) (ops : List Op) :
    let s := runs step (start authority capable) ops
    (s.accepted.map Original.id).Nodup ∧ (s.retained ++ s.originals ++ s.fates.map Prod.snd).Perm s.accepted ∧
      ∀ fate ∈ s.fates, ∀ authority, fate.1 = .decided authority →
        fate.2.authorityFingerprint.all (fun expected => authority == some expected) = true := by
  intro s
  have h : Sound s := sound_run ops (sound_start authority capable)
  exact ⟨h.ids, h.places, h.decided⟩

end ServerBee.Originals
