/-
The order of the rule decisions.

A sliding cooldown reads the time of the decision before, so the originals of one key have to be decided in their order. Where
each original of a key comes after those accepted before it, an undecided one is never overtaken: the checks look at the
retained originals and the durable ones, and nothing that is accepted after them comes before the one that they let through.
-/
import ServerBee.Originals.Custody

namespace ServerBee.Originals

open ServerBee.Lib

/-- within a key, the one comes before the other -/
def before (o o' : Original) : Prop := sameKey o o' = true → o.position < o'.position

/-- the clock and the ids put the new original behind the ones of its key -/
def forward (s : St) : Op → Prop
  | .retain o => ∀ a ∈ s.accepted, before a o
  | .record o _ _ => ∀ a ∈ s.accepted, before a o
  | _ => True

theorem sameKey_iff {o o' : Original} :
    sameKey o o' = true ↔ o.serverId = o'.serverId ∧ o.eventType = o'.eventType ∧ o.sourceIp = o'.sourceIp := by
  simp [sameKey, and_assoc]

theorem sameKey_comm {o o' : Original} (h : sameKey o o' = true) : sameKey o' o = true := by
  obtain ⟨hs, ht, hi⟩ := sameKey_iff.1 h
  exact sameKey_iff.2 ⟨hs.symm, ht.symm, hi.symm⟩

theorem earlier_iff {o o' : Original} : earlier o o' = true ↔ sameKey o o' = true ∧ o.position < o'.position := by
  simp [earlier]

/-- of two originals of a key one comes first, and the position tells which -/
theorem before_of_not_earlier {o o' : Original} (hid : o.id ≠ o'.id) (h : ¬ earlier o' o = true) : before o o' := by
  intro hk
  have hle : ¬ o'.position < o.position := fun hlt => h (earlier_iff.2 ⟨sameKey_comm hk, hlt⟩)
  refine lt_of_le_of_ne (le_of_not_gt hle) fun heq => hid ?_
  exact congrArg (fun p : Position => (ofLex p).2) heq

theorem not_earlier_of_before {o o' : Original} (h : before o o') : ¬ earlier o' o = true := by
  intro he
  obtain ⟨hk, hlt⟩ := earlier_iff.1 he
  exact lt_asymm hlt (h (sameKey_comm hk))

namespace St

def live (s : St) : List Original := s.retained ++ s.originals

/-- in the order of their commits -/
def decided (s : St) : List Original :=
  s.fates.filterMap fun fate => match fate.1 with
    | .decided _ => some fate.2
    | _ => none

end St

theorem decided_subset {s : St} {d : Original} (hd : d ∈ s.decided) : ∃ fate ∈ s.fates, fate.2 = d := by
  obtain ⟨fate, hf, hfd⟩ := List.mem_filterMap.1 hd
  refine ⟨fate, hf, ?_⟩
  split at hfd
  · exact Option.some.inj hfd
  · cases hfd

theorem Sound.decided_accepted {s : St} (h : Sound s) {d : Original} (hd : d ∈ s.decided) : d ∈ s.accepted := by
  obtain ⟨fate, hf, rfl⟩ := decided_subset hd
  exact h.places.subset (List.mem_append_right _ (List.mem_map_of_mem hf))

/-- what is decided is in order, and comes before all that is not -/
structure Ordered (s : St) : Prop where
  decided : s.decided.Pairwise before
  live : ∀ d ∈ s.decided, ∀ o ∈ s.live, before d o
  /-- the original whose admission is under way is the first of its key -/
  first : ∀ id ∈ s.admitting, ∀ o ∈ s.originals, o.id = id → ∀ other ∈ s.live, ¬ earlier other o = true

namespace Ordered

variable {s s' : St}

/-- a step that decides nothing and lets nothing through -/
theorem keep (h : Ordered s) (hd : s'.decided = s.decided) (hl : ∀ o ∈ s'.live, o ∈ s.live) (ha : s'.admitting = none) :
    Ordered s' := by
  refine ⟨hd ▸ h.decided, fun d hm o ho => ?_, fun id hid => ?_⟩
  · rw [hd] at hm
    exact h.live d hm o (hl o ho)
  · rw [ha] at hid
    cases hid

/-- an original that is new comes after all of its key -/
theorem accept (h : Ordered s) (hs : Sound s) {o : Original} (ho : ∀ a ∈ s.accepted, before a o)
    (hd : s'.decided = s.decided) (hl : ∀ x ∈ s'.live, x ∈ s.live ∨ x = o)
    (ha : ∀ id ∈ s'.admitting, id ∈ s.admitting ∧ s'.originals = s.originals) : Ordered s' := by
  refine ⟨hd ▸ h.decided, fun d hm x hx => ?_, fun id hid x hx hxid other hother => ?_⟩
  · rw [hd] at hm
    rcases hl x hx with hx | rfl
    · exact h.live d hm x hx
    · exact ho d (hs.decided_accepted hm)
  · obtain ⟨hid, hsame⟩ := ha id hid
    rw [hsame] at hx
    rcases hl other hother with hother | rfl
    · exact h.first id hid x hx hxid other hother
    · exact not_earlier_of_before (ho x (hs.mem_accepted (List.mem_append_right _ hx)))

/-! ## Every step -/

theorem retainAgentEvent (h : Ordered s) (hs : Sound s) {o : Original} (ho : ∀ a ∈ s.accepted, before a o) :
    Ordered (s.retainAgentEvent o) := by
  unfold St.retainAgentEvent
  split
  · refine h.accept hs ho rfl (fun x hx => ?_) fun id hid => ⟨hid, rfl⟩
    simp only [St.live, St.originals, List.mem_append, List.mem_singleton] at hx ⊢
    tauto
  · exact h

theorem persistOriginal (h : Ordered s) (hl : s.admitting = none) {o : Original} (ho : o ∈ s.retained) (commits : Bool)
    (maintenance : Option Bool) : Ordered (s.persistOriginal o commits maintenance) := by
  have rest : ∀ x ∈ s.retained.filter (fun other => other.id != o.id), x ∈ s.live :=
    fun x hx => List.mem_append_left _ (List.mem_filter.1 hx).1
  have mem : o ∈ s.live := List.mem_append_left _ ho
  have table : ∀ x ∈ s.originals, x ∈ s.live := fun x hx => List.mem_append_right _ hx
  unfold St.persistOriginal
  split
  · refine h.keep rfl (fun x hx => ?_) hl
    rcases List.mem_append.1 hx with hx | hx
    · rcases List.mem_append.1 hx with hx | hx
      · exact rest x hx
      · rwa [List.mem_singleton.1 hx]
    · exact table x hx
  · split
    · refine h.keep ?_ (fun x hx => ?_) hl
      · simp [St.decided]
      · exact (List.mem_append.1 hx).elim (rest x) (table x)
    · split
      · exact h.keep rfl (fun x hx => (List.mem_append.1 hx).elim (rest x) (table x)) hl
      · refine h.keep rfl (fun x hx => ?_) hl
        rcases List.mem_append.1 hx with hx | hx
        · exact rest x hx
        · simp only [St.originals, List.map_append, List.map_cons, List.map_nil] at hx
          rcases List.mem_append.1 hx with hx | hx
          · exact table x hx
          · rwa [List.mem_singleton.1 hx]

theorem recordEvent (h : Ordered s) (hs : Sound s) (hl : s.admitting = none) {o : Original}
    (ho : ∀ a ∈ s.accepted, before a o) (commits : Bool) (maintenance : Option Bool) :
    Ordered (s.recordEvent o commits maintenance) := by
  unfold St.recordEvent
  split
  · refine h.accept hs (o := { o with authorityFingerprint := none }) ho rfl (fun x hx => ?_) fun id hid => ?_
    · simp only [St.live, St.originals, List.map_append, List.map_cons, List.map_nil, List.mem_append,
        List.mem_singleton] at hx ⊢
      tauto
    · rw [hl] at hid
      cases hid
  · exact h

/-- a row that goes without a decision -/
theorem remove (h : Ordered s) (hl : s.admitting = none) (id : String) {fate : Fate × Original}
    (hfate : ∀ authority, fate.1 ≠ .decided authority) {batch settled attempted : List String} :
    Ordered { s with
      pending := s.pending.filter fun row => row.original.id != id
      batch := batch
      settled := settled
      attempted := attempted
      fates := s.fates ++ [fate] } := by
  refine h.keep ?_ (fun x hx => ?_) hl
  · obtain ⟨fate, o⟩ := fate
    cases fate with
    | decided authority => exact absurd rfl (hfate authority)
    | cancelled => simp [St.decided]
    | deleted => simp [St.decided]
    | lost => simp [St.decided]
  · rcases List.mem_append.1 hx with hx | hx
    · exact List.mem_append_left _ hx
    · obtain ⟨row, hr, rfl⟩ := List.mem_map.1 hx
      exact List.mem_append_right _ (List.mem_map_of_mem (List.mem_filter.1 hr).1)

theorem check (h : Ordered s) (hs : Sound s) (hl : s.admitting = none) (id : String) (rest : List String)
    (commits maintenance : Bool) : Ordered (s.check id rest commits maintenance) := by
  have done : Ordered { s with attempted := s.attempted ++ [id], batch := rest } := ⟨h.decided, h.live, h.first⟩
  unfold St.check
  cases hf : s.pending.find? (·.original.id == id) with
  | none => simpa only [hf] using done
  | some row =>
    obtain ⟨ho, hid⟩ := find_original hf
    simp only [hf]
    split
    · split
      · exact h.remove hl row.original.id (fun authority => by simp)
      · exact done
    · split
      · exact done
      · rename_i hearlier
        split
        · split
          · refine h.keep rfl (fun x hx => ?_) hl
            simp only [St.live, St.setMaintenance, St.originals, List.map_map] at hx ⊢
            rcases List.mem_append.1 hx with hx | hx
            · exact List.mem_append_left _ hx
            · obtain ⟨r, hr, rfl⟩ := List.mem_map.1 hx
              refine List.mem_append_right _ (List.mem_map.2 ⟨r, hr, ?_⟩)
              simp only [Function.comp]
              split <;> rfl
          · exact done
        · -- the checks have found nothing before it
          refine ⟨h.decided, h.live, fun i hi o ho' hoid other hother he => hearlier ?_⟩
          cases hi
          have heq : o = row.original := List.inj_on_of_nodup_map hs.nodup_parts.2.1 ho' ho (hoid.trans hid.symm)
          subst heq
          rw [St.hasEarlierOriginal, Bool.or_eq_true, List.any_eq_true, List.any_eq_true]
          rcases List.mem_append.1 hother with hm | hm
          · exact .inl ⟨other, hm, he⟩
          · exact .inr ⟨other, hm, he⟩

/-- the decision of the first of its key -/
theorem decide (h : Ordered s) (hs : Sound s) {id : String} (ha : s.admitting = some id) (commits : Bool) :
    Ordered (s.decide id commits) := by
  have done : Ordered { s with batch := s.batch.tail, admitting := none } := h.keep rfl (fun _ hx => hx) rfl
  unfold St.decide
  cases hf : s.pending.find? (·.original.id == id) with
  | none => exact done
  | some row =>
    obtain ⟨ho, hid⟩ := find_original hf
    simp only
    split
    · have hlive : row.original ∈ s.live := List.mem_append_right _ ho
      have hdec : (St.settle { s with batch := s.batch.tail, admitting := none } row.original
          (.decided (s.authority row.original.serverId))).decided = s.decided ++ [row.original] := by
        simp [St.decided, St.settle]
      have hrest : ∀ x ∈ (St.settle { s with batch := s.batch.tail, admitting := none } row.original
          (.decided (s.authority row.original.serverId))).live, x ∈ s.live ∧ x.id ≠ row.original.id := by
        intro x hx
        rcases List.mem_append.1 hx with hx | hx
        · exact ⟨List.mem_append_left _ hx, hs.retained_not_pending hx ho⟩
        · obtain ⟨r, hr, rfl⟩ := List.mem_map.1 hx
          obtain ⟨hr, hne⟩ := List.mem_filter.1 hr
          exact ⟨List.mem_append_right _ (List.mem_map_of_mem hr), by simpa using hne⟩
      refine ⟨?_, fun d hd x hx => ?_, fun i hi => by cases hi⟩
      · rw [hdec]
        refine List.pairwise_append.2 ⟨h.decided, List.pairwise_singleton _ _, fun d hd x hx => ?_⟩
        rw [List.mem_singleton.1 hx]
        exact h.live d hd _ hlive
      · rw [hdec] at hd
        obtain ⟨hx, hne⟩ := hrest x hx
        rcases List.mem_append.1 hd with hd | hd
        · exact h.live d hd x hx
        · rw [List.mem_singleton.1 hd]
          exact before_of_not_earlier hne.symm (h.first id ha _ ho hid x hx)
    · exact done

theorem deleteEvent (h : Ordered s) (hl : s.admitting = none) (id : String) : Ordered (s.deleteEvent id) := by
  unfold St.deleteEvent
  split
  · exact ⟨h.decided, h.live, h.first⟩
  · exact h.remove hl id (fun authority => by simp)

theorem restart (h : Ordered s) : Ordered s.restart := by
  refine h.keep ?_ (fun x hx => List.mem_append_right _ ?_) rfl
  · simp [St.decided, St.restart, List.filterMap_append, List.filterMap_map]
  · simpa [St.live, St.restart, St.originals] using hx

theorem step (h : Ordered s) (hs : Sound s) (op : Op) (hop : forward s op) : Ordered (Originals.step s op) := by
  have unlocked : ¬ s.locked = true → s.admitting = none := by
    intro hl
    simpa [St.locked] using hl
  cases op with
  | retain o => exact h.retainAgentEvent hs hop
  | persist id commits maintenance =>
    simp only [Originals.step]
    split
    · exact h
    · rename_i hl
      cases hf : s.retained.find? (·.id == id) with
      | none => exact h
      | some o => exact h.persistOriginal (unlocked hl) (List.mem_of_find?_eq_some hf) commits maintenance
  | record o commits maintenance =>
    simp only [Originals.step]
    split
    · exact h
    · rename_i hl
      exact h.recordEvent hs (unlocked hl) hop commits maintenance
  | scan =>
    simp only [Originals.step]
    split
    · exact h
    · exact ⟨h.decided, h.live, h.first⟩
  | check commits maintenance =>
    simp only [Originals.step]
    split
    · exact h
    · rename_i hl
      split
      · exact h
      · exact h.check hs (unlocked hl) _ _ commits maintenance
  | decide commits =>
    cases ha : s.admitting with
    | none => simpa [Originals.step, ha] using h
    | some id => simpa [Originals.step, ha] using h.decide hs ha commits
  | delete id =>
    simp only [Originals.step]
    split
    · exact h
    · rename_i hl
      exact h.deleteEvent (unlocked hl) id
  | authorize server authority =>
    simp only [Originals.step]
    split
    · exact h
    · exact ⟨h.decided, h.live, h.first⟩
  | enable server capable => exact ⟨h.decided, h.live, h.first⟩
  | restart => exact h.restart

end Ordered

/-- **Decisions keep the order.** Where the accepted originals of each key come forward, their rule decisions are committed in
the order of their positions: none is decided after a later one of its key, whatever fails, waits in memory, is cancelled or
deleted in between, and across restarts. -/
theorem decided_in_order {authority : String → Option String} {capable : String → Bool} {ops : List Op}
    (h : Along step forward (start authority capable) ops) :
    (runs step (start authority capable) ops).decided.Pairwise before := by
  have hstep : ∀ s op, Sound s ∧ Ordered s → forward s op → Sound (step s op) ∧ Ordered (step s op) :=
    fun s op hs hop => ⟨hs.1.step op, hs.2.step hs.1 op hop⟩
  have hstart : Ordered (start authority capable) :=
    ⟨List.Pairwise.nil, fun d hd => absurd hd List.not_mem_nil, fun id hid => by cases hid⟩
  exact (h.invariant hstep ⟨sound_start authority capable, hstart⟩).2.decided

def earlyLogin : Original := ⟨"a", "s", "ssh_login", "10.0.0.1", 1, some "f"⟩

def lateLogin : Original := ⟨"b", "s", "ssh_login", "10.0.0.1", 2, none⟩

/-- the later one is in the table while the earlier one is still retained -/
def overtaking : List Op :=
  [.retain earlyLogin, .record lateLogin true (some false), .scan, .check true false, .persist "a" true (some false), .scan,
    .check true false, .decide true, .scan, .check true false, .decide true]

theorem overtaking_in_order : (runs step (start (fun _ => some "f") fun _ => true) overtaking).decided.Pairwise before := by
  have hforward : ∀ a ∈ [earlyLogin], before a lateLogin := by
    intro a ha _
    rw [List.mem_singleton.1 ha]
    exact Prod.Lex.left _ _ (by decide)
  exact decided_in_order ⟨fun a ha => absurd ha List.not_mem_nil, hforward, trivial, trivial, trivial, trivial, trivial,
    trivial, trivial, trivial, trivial, trivial⟩

example : ((runs step (start (fun _ => some "f") fun _ => true) overtaking).decided.map Original.id) = ["a", "b"] := by
  decide

end ServerBee.Originals
