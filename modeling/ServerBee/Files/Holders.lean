/-
Who holds what in the file manager (`file_manager.rs`).

A live upload, a start and a call hold a temporary entry, from its create to its rename or removal, and a reservation of a path
(`Item`). `Temps` and `Paths` say that the holders do not meet; the lemmas say how that survives when one holder changes, and
what the holders are after the changes of state that the steps are made of.
-/
import ServerBee.Files.Uploads

namespace ServerBee.Files

open ServerBee.Lib

/-! ## What is held -/

inductive Holder where
  | upload (id : String)
  | start
  | call (k : ℕ)
deriving DecidableEq, Repr

inductive Item where
  | upload (up : Upload)
  | start (up : Upload) (phase : StartPhase)
  | call (call : Call)

def State.item (s : State) : Holder → Option Item
  | .upload id => (s.uploads.get id).map .upload
  | .start => s.starting.map fun start => .start start.1 start.2
  | .call k => (s.calls k).map .call

/-- the temporary entry of a holder that has created it and not yet given it up -/
def Item.temp : Item → Option Loc
  | .upload up | .start up .opened | .call (.finish up .moving) | .call (.finish up .removing) => some up.tmp
  | .call (.abort tmp) => some tmp
  | .call (.write w .moving) => some w.tmp
  | _ => none

/-- a live upload: from its reservation to the end of its finish -/
def Item.path : Item → Option Path
  | .upload up | .start up _ | .call (.finish up _) => some up.path
  | _ => none

/-! ## The invariant -/

/-- the file of a live upload starts with its acknowledged chunks, and does not exceed its size -/
structure Upload.Fits (up : Upload) (d : Disk Loc UInt8) : Prop where
  content : ∃ content, d.read up.tmp = some content ∧ content.take up.nextOffset = up.acked.flatten ∧ content.length ≤ up.size
  acked : up.acked.flatten.length = up.nextOffset
  chunk : ∀ chunk, up.chunk = some chunk → up.nextOffset + chunk.bytes.length ≤ up.size ∧
    ∀ file, chunk.file = some file → d.files up.tmp = some file

structure Upload.Fresh (up : Upload) : Prop where
  nextOffset : up.nextOffset = 0
  acked : up.acked = []
  chunk : up.chunk = none

def Item.Fits (d : Disk Loc UInt8) : Item → Prop
  | .upload up => up.Fits d
  | .start up phase => up.Fresh ∧ (phase = .opened → d.read up.tmp = some [])
  | .call (.finish up .moving) => d.read up.tmp = some up.acked.flatten ∧ up.acked.flatten.length = up.size
  | .call (.write w .moving) => w.tmp ≠ w.target ∧ d.read w.tmp = some w.content
  | _ => True

/-- every temporary entry has one holder, and is as its holder left it -/
structure Temps (items : Holder → Option Item) (d : Disk Loc UInt8) : Prop where
  sound : d.Sound
  one : ∀ h h' i i' l, items h = some i → items h' = some i' → i.temp = some l → i'.temp = some l → h = h'
  marked : ∀ h i l, items h = some i → i.temp = some l → d.temporary l = true ∧ d.files l ≠ none
  fits : ∀ h i, items h = some i → i.Fits d

/-- every reservation has one holder -/
structure Paths (items : Holder → Option Item) (targets : Path → Option String) : Prop where
  one : ∀ h h' i i' p, items h = some i → items h' = some i' → i.path = some p → i'.path = some p → h = h'
  reserved : ∀ p, targets p ≠ none ↔ ∃ h i, items h = some i ∧ i.path = some p

structure Inv (s : State) : Prop where
  temps : Temps s.item s.disk
  paths : Paths s.item s.targets
  /-- the starting id is not in the map -/
  starting : ∀ up phase, s.starting = some (up, phase) → s.uploads.get up.id = none
  drawn : ∀ k, s.fresh ≤ k → s.calls k = none

/-! ## One holder changes -/

theorem Item.Fits.same {d d' : Disk Loc UInt8} {i : Item} (h : i.Fits d) (hsame : ∀ l, i.temp = some l → Disk.Same d d' l) :
    i.Fits d' := by
  cases i with
  | upload up =>
    have htmp := hsame up.tmp rfl
    obtain ⟨⟨content, hread, htake, hlen⟩, hacked, hchunk⟩ := h
    refine ⟨⟨content, htmp.read.trans hread, htake, hlen⟩, hacked, fun chunk hc => ⟨(hchunk chunk hc).1, fun file hfile => ?_⟩⟩
    exact htmp.files.trans ((hchunk chunk hc).2 file hfile)
  | start up phase =>
    refine ⟨h.1, fun hopened => ?_⟩
    subst hopened
    exact (hsame up.tmp rfl).read.trans (h.2 rfl)
  | call call =>
    cases call with
    | finish up phase =>
      cases phase with
      | moving => exact ⟨(hsame up.tmp rfl).read.trans h.1, h.2⟩
      | _ => trivial
    | abort tmp => trivial
    | write w phase =>
      cases phase with
      | moving => exact ⟨h.1, (hsame w.tmp rfl).read.trans h.2⟩
      | _ => trivial

theorem items_update {items : Holder → Option Item} {holder h : Holder} {new : Option Item} {i : Item}
    (hi : Function.update items holder new h = some i) : h = holder ∧ new = some i ∨ h ≠ holder ∧ items h = some i := by
  by_cases hh : h = holder
  · subst hh
    rw [Function.update_self] at hi
    exact Or.inl ⟨rfl, hi⟩
  · rw [Function.update_of_ne hh] at hi
    exact Or.inr ⟨hh, hi⟩

section Changes

variable {items : Holder → Option Item} {targets : Path → Option String} {d d' : Disk Loc UInt8} {holder : Holder}

/-- a holder does its work, and the disk stays as it is for the others -/
theorem Temps.update (h : Temps items d) (holder : Holder) (new : Option Item) (hd : d'.Sound)
    (hsame : ∀ k i l, items k = some i → k ≠ holder → i.temp = some l → Disk.Same d d' l)
    (hnew : ∀ i, new = some i → i.Fits d' ∧ ∀ l, i.temp = some l → d'.temporary l = true ∧ d'.files l ≠ none ∧
      ∀ k i', items k = some i' → k ≠ holder → i'.temp ≠ some l) :
    Temps (Function.update items holder new) d' := by
  refine ⟨hd, fun k k' i i' l hi hi' hl hl' => ?_, fun k i l hi hl => ?_, fun k i hi => ?_⟩
  · replace hi := items_update hi
    rcases hi with ⟨rfl, hi⟩ | ⟨hk, hi⟩
    · replace hi' := items_update hi'
      rcases hi' with ⟨rfl, -⟩ | ⟨hk', hi'⟩
      · rfl
      · exact absurd hl' (((hnew i hi).2 l hl).2.2 k' i' hi' hk')
    · replace hi' := items_update hi'
      rcases hi' with ⟨rfl, hi'⟩ | ⟨-, hi'⟩
      · exact absurd hl (((hnew i' hi').2 l hl').2.2 k i hi hk)
      · exact h.one k k' i i' l hi hi' hl hl'
  · replace hi := items_update hi
    rcases hi with ⟨rfl, hi⟩ | ⟨hk, hi⟩
    · obtain ⟨hmark, hfile, -⟩ := (hnew i hi).2 l hl
      exact ⟨hmark, hfile⟩
    · have hl' := hsame k i l hi hk hl
      rw [hl'.temporary, hl'.files]
      exact h.marked k i l hi hl
  · replace hi := items_update hi
    rcases hi with ⟨rfl, hi⟩ | ⟨hk, hi⟩
    · exact (hnew i hi).1
    · exact (h.fits k i hi).same fun l hl => hsame k i l hi hk hl

/-- with the disk as it is, and the temporary entry that the holder has -/
theorem Temps.relabel (h : Temps items d) {old new : Item} (hold : items holder = some old) (hfits : new.Fits d)
    (htemp : ∀ l, new.temp = some l → old.temp = some l) : Temps (Function.update items holder (some new)) d := by
  refine h.update holder _ h.sound (fun _ _ l _ _ _ => .refl d l) fun i hi => ?_
  obtain rfl := Option.some.inj hi
  refine ⟨hfits, fun l hl => ?_⟩
  obtain ⟨hmark, hfile⟩ := h.marked holder old l hold (htemp l hl)
  exact ⟨hmark, hfile, fun k i' hi' hk hl' => hk (h.one k holder i' old l hi' hold hl' (htemp l hl))⟩

theorem Temps.of {items' : Holder → Option Item} (h : Temps items d) (heq : items' = items) : Temps items' d := heq ▸ h

theorem Paths.of {items' : Holder → Option Item} (h : Paths items targets) (heq : items' = items) : Paths items' targets :=
  heq ▸ h

theorem Temps.drop (h : Temps items d) (holder : Holder) : Temps (Function.update items holder none) d :=
  h.update holder none h.sound (fun _ _ l _ _ _ => .refl d l) fun i hi => by cases hi

/-- from one holder to another -/
theorem Temps.move (h : Temps items d) {other : Holder} {old new : Item} (hold : items holder = some old)
    (hother : items other = none) (hfits : new.Fits d) (htemp : ∀ l, new.temp = some l → old.temp = some l) :
    Temps (Function.update (Function.update items holder none) other (some new)) d := by
  have hne : holder ≠ other := by
    intro heq
    rw [heq, hother] at hold
    cases hold
  refine (h.drop holder).update other _ h.sound (fun _ _ l _ _ _ => .refl d l) fun i hi => ?_
  obtain rfl := Option.some.inj hi
  refine ⟨hfits, fun l hl => ?_⟩
  obtain ⟨hmark, hfile⟩ := h.marked holder old l hold (htemp l hl)
  refine ⟨hmark, hfile, fun k i' hi' _ hl' => ?_⟩
  replace hi' := items_update hi'
  rcases hi' with ⟨-, hno⟩ | ⟨hk, hi'⟩
  · cases hno
  · exact hk (h.one k holder i' old l hi' hold hl' (htemp l hl))

/-- work on the entry that a holder has is nobody else's -/
theorem Temps.same (h : Temps items d) {old : Item} {l : Loc} (hold : items holder = some old) (hl : old.temp = some l)
    (hsame : ∀ k, k ≠ l → Disk.Same d d' k) (k : Holder) (i : Item) (l' : Loc) (hi : items k = some i) (hk : k ≠ holder)
    (hl' : i.temp = some l') : Disk.Same d d' l' := by
  apply hsame
  intro heq
  subst heq
  exact hk (h.one k holder i old l' hi hold hl' hl)

theorem Paths.relabel (h : Paths items targets) (holder : Holder) (new : Option Item)
    (hpath : ∀ p, (∃ i, new = some i ∧ i.path = some p) ↔ ∃ i, items holder = some i ∧ i.path = some p) :
    Paths (Function.update items holder new) targets := by
  have hof {k : Holder} {i : Item} {p : Path} (hi : Function.update items holder new k = some i) (hp : i.path = some p) :
      ∃ i', items k = some i' ∧ i'.path = some p := by
    replace hi := items_update hi
    rcases hi with ⟨rfl, hi⟩ | ⟨-, hi⟩
    · exact (hpath p).1 ⟨i, hi, hp⟩
    · exact ⟨i, hi, hp⟩
  refine ⟨fun k k' i i' p hi hi' hp hp' => ?_, fun p => ⟨fun hres => ?_, fun ⟨k, i, hi, hp⟩ => ?_⟩⟩
  · obtain ⟨j, hj, hjp⟩ := hof hi hp
    obtain ⟨j', hj', hjp'⟩ := hof hi' hp'
    exact h.one k k' j j' p hj hj' hjp hjp'
  · obtain ⟨k, i, hi, hp⟩ := (h.reserved p).1 hres
    by_cases hk : k = holder
    · subst hk
      obtain ⟨i', hi', hp'⟩ := (hpath p).2 ⟨i, hi, hp⟩
      exact ⟨k, i', by rw [Function.update_self, hi'], hp'⟩
    · exact ⟨k, i, by rw [Function.update_of_ne hk, hi], hp⟩
  · obtain ⟨j, hj, hjp⟩ := hof hi hp
    exact (h.reserved p).2 ⟨k, j, hj, hjp⟩

theorem Paths.move (h : Paths items targets) {other : Holder} {old new : Item} (hold : items holder = some old)
    (hother : items other = none) (hpath : new.path = old.path) :
    Paths (Function.update (Function.update items holder none) other (some new)) targets := by
  have hof {k : Holder} {i : Item} (hi : Function.update (Function.update items holder none) other (some new) k = some i) :
      k = other ∧ i = new ∨ k ≠ holder ∧ k ≠ other ∧ items k = some i := by
    replace hi := items_update hi
    rcases hi with ⟨rfl, hi⟩ | ⟨hk, hi⟩
    · exact Or.inl ⟨rfl, (Option.some.inj hi).symm⟩
    · replace hi := items_update hi
      rcases hi with ⟨-, hno⟩ | ⟨hk', hi⟩
      · cases hno
      · exact Or.inr ⟨hk', hk, hi⟩
  refine ⟨fun k k' i i' p hi hi' hp hp' => ?_, fun p => ⟨fun hres => ?_, fun ⟨k, i, hi, hp⟩ => ?_⟩⟩
  · replace hi := hof hi
    rcases hi with ⟨rfl, rfl⟩ | ⟨hk, -, hi⟩
    · replace hi' := hof hi'
      rcases hi' with ⟨rfl, -⟩ | ⟨hk', -, hi'⟩
      · rfl
      · exact absurd (h.one k' holder i' old p hi' hold hp' (hpath ▸ hp)) hk'
    · replace hi' := hof hi'
      rcases hi' with ⟨rfl, rfl⟩ | ⟨-, -, hi'⟩
      · exact absurd (h.one k holder i old p hi hold hp (hpath ▸ hp')) hk
      · exact h.one k k' i i' p hi hi' hp hp'
  · obtain ⟨k, i, hi, hp⟩ := (h.reserved p).1 hres
    by_cases hk : k = holder
    · subst hk
      obtain rfl := Option.some.inj (hi.symm.trans hold)
      exact ⟨other, new, Function.update_self .., hpath.trans hp⟩
    · have hko : k ≠ other := by
        intro heq
        rw [heq, hother] at hi
        cases hi
      exact ⟨k, i, by rw [Function.update_of_ne hko, Function.update_of_ne hk, hi], hp⟩
  · replace hi := hof hi
    rcases hi with ⟨-, rfl⟩ | ⟨-, -, hi⟩
    · exact (h.reserved p).2 ⟨holder, old, hold, hpath ▸ hp⟩
    · exact (h.reserved p).2 ⟨k, i, hi, hp⟩

/-- a path that nobody has reserved -/
theorem Paths.reserve (h : Paths items targets) {new : Item} {p : Path} {id : String} (hnone : items holder = none)
    (hfree : targets p = none) (hpath : new.path = some p) :
    Paths (Function.update items holder (some new)) (Function.update targets p (some id)) := by
  have hno (k : Holder) (i : Item) (hi : items k = some i) : i.path ≠ some p := fun hp => (h.reserved p).2 ⟨k, i, hi, hp⟩ hfree
  refine ⟨fun k k' i i' q hi hi' hq hq' => ?_, fun q => ?_⟩
  · replace hi := items_update hi
    rcases hi with ⟨rfl, hi⟩ | ⟨-, hi⟩
    · replace hi' := items_update hi'
      rcases hi' with ⟨rfl, -⟩ | ⟨-, hi'⟩
      · rfl
      · obtain rfl := Option.some.inj hi
        obtain rfl := Option.some.inj (hpath.symm.trans hq)
        exact absurd hq' (hno k' i' hi')
    · replace hi' := items_update hi'
      rcases hi' with ⟨rfl, hi'⟩ | ⟨-, hi'⟩
      · obtain rfl := Option.some.inj hi'
        obtain rfl := Option.some.inj (hpath.symm.trans hq')
        exact absurd hq (hno k i hi)
      · exact h.one k k' i i' q hi hi' hq hq'
  · by_cases hq : q = p
    · subst hq
      refine iff_of_true ?_ ⟨holder, new, Function.update_self .., hpath⟩
      rw [Function.update_self]
      exact Option.some_ne_none id
    · rw [Function.update_of_ne hq, h.reserved q]
      refine ⟨fun ⟨k, i, hi, hip⟩ => ⟨k, i, ?_, hip⟩, fun ⟨k, i, hi, hip⟩ => ?_⟩
      · have hk : k ≠ holder := by
          intro heq
          rw [heq, hnone] at hi
          cases hi
        rw [Function.update_of_ne hk, hi]
      · replace hi := items_update hi
        rcases hi with ⟨-, hi⟩ | ⟨-, hi⟩
        · obtain rfl := Option.some.inj hi
          exact absurd (Option.some.inj (hip.symm.trans hpath)) hq
        · exact ⟨k, i, hi, hip⟩

theorem Paths.release (h : Paths items targets) {old : Item} {p : Path} (hold : items holder = some old)
    (hpath : old.path = some p) : Paths (Function.update items holder none) (Function.update targets p none) := by
  refine ⟨fun k k' i i' q hi hi' hq hq' => ?_, fun q => ?_⟩
  · replace hi := items_update hi
    rcases hi with ⟨-, hno⟩ | ⟨-, hi⟩
    · cases hno
    · replace hi' := items_update hi'
      rcases hi' with ⟨-, hno⟩ | ⟨-, hi'⟩
      · cases hno
      · exact h.one k k' i i' q hi hi' hq hq'
  · by_cases hq : q = p
    · subst hq
      rw [Function.update_self]
      refine iff_of_false (fun hno => hno rfl) fun ⟨k, i, hi, hip⟩ => ?_
      replace hi := items_update hi
      rcases hi with ⟨-, hno⟩ | ⟨hk, hi⟩
      · cases hno
      · exact hk (h.one k holder i old q hi hold hip hpath)
    · rw [Function.update_of_ne hq, h.reserved q]
      refine ⟨fun ⟨k, i, hi, hip⟩ => ⟨k, i, ?_, hip⟩, fun ⟨k, i, hi, hip⟩ => ?_⟩
      · have hk : k ≠ holder := by
          intro heq
          subst heq
          obtain rfl := Option.some.inj (hold.symm.trans hi)
          exact hq (Option.some.inj (hip.symm.trans hpath))
        rw [Function.update_of_ne hk, hi]
      · replace hi := items_update hi
        rcases hi with ⟨-, hno⟩ | ⟨-, hi⟩
        · cases hno
        · exact ⟨k, i, hi, hip⟩

end Changes

/-! ## The holders after a step -/

section Items

variable (s : State)

theorem item_starting {s s' : State} (huploads : s'.uploads = s.uploads) (hcalls : s'.calls = s.calls) :
    s'.item = Function.update s.item .start (s'.starting.map fun start => .start start.1 start.2) := by
  funext h
  cases h <;> simp [State.item, Function.update, huploads, hcalls]

theorem item_calls (k : ℕ) (call : Option Call) :
    State.item { s with calls := Function.update s.calls k call } = Function.update s.item (.call k) (call.map .call) := by
  funext h
  cases h with
  | call j =>
    by_cases hj : j = k
    · simp [State.item, hj]
    · simp [State.item, hj]
  | _ => simp [State.item, Function.update]

@[simp] theorem item_goto (k : ℕ) (call : Call) : (s.goto k call).item = Function.update s.item (.call k) (some (.call call)) :=
  item_calls s k (some call)

@[simp] theorem item_finished (k : ℕ) : (s.finished k).item = Function.update s.item (.call k) none := item_calls s k none

@[simp] theorem item_answer (k : ℕ) (ok : Bool) : (s.answer k ok).item = Function.update s.item (.call k) none :=
  item_calls s k none

@[simp] theorem item_spawn (call : Call) : (s.spawn call).item = Function.update s.item (.call s.fresh) (some (.call call)) :=
  item_calls s s.fresh (some call)

@[simp] theorem item_release (path : Path) : (s.release path).item = s.item := rfl

theorem item_uploads {uploads : Table Upload.id} (id : String) (h : ∀ k, k ≠ id → uploads.get k = s.uploads.get k) :
    State.item { s with uploads := uploads } = Function.update s.item (.upload id) ((uploads.get id).map .upload) := by
  funext holder
  cases holder with
  | upload k =>
    by_cases hk : k = id
    · simp [State.item, hk]
    · simp [State.item, hk, h k hk]
  | _ => simp [State.item, Function.update]

theorem get_takeUpload (id k : String) : (s.takeUpload id).uploads.get k = if k = id then none else s.uploads.get k := by
  simp only [State.takeUpload, Table.get_delete]
  cases hk : s.uploads.get k with
  | none => simp
  | some up =>
    obtain ⟨-, rfl⟩ := Table.get_eq_some.1 hk
    by_cases hid : up.id = id
    · simp [hid]
    · simp [hid]

@[simp] theorem item_takeUpload (id : String) : (s.takeUpload id).item = Function.update s.item (.upload id) none := by
  have hget := get_takeUpload s id
  refine (item_uploads s id fun k hk => (hget k).trans (if_neg hk)).trans ?_
  rw [hget, if_pos rfl]
  rfl

variable {s} {up old : Upload}

theorem get_setUpload (h : s.uploads.get up.id = some old) (k : String) :
    (s.setUpload up).uploads.get k = if k = up.id then some up else s.uploads.get k := by
  simp only [State.setUpload, Table.get_set]
  by_cases hk : k = up.id
  · simp [hk, h]
  · simp [hk]

theorem item_setUpload (h : s.uploads.get up.id = some old) :
    (s.setUpload up).item = Function.update s.item (.upload up.id) (some (.upload up)) := by
  have hget := get_setUpload h
  refine (item_uploads s up.id fun k hk => (hget k).trans (if_neg hk)).trans ?_
  rw [hget, if_pos rfl]
  rfl

theorem get_putUpload (h : s.uploads.get up.id = none) (k : String) :
    (s.putUpload up).uploads.get k = if k = up.id then some up else s.uploads.get k := by
  cases hins : s.uploads.insert up with
  | none =>
    rw [Table.insert_eq_none, h] at hins
    cases hins
  | some uploads => simp only [State.putUpload, hins, Option.getD_some, Table.get_insert hins]

theorem item_putUpload (h : s.uploads.get up.id = none) :
    (s.putUpload up).item = Function.update s.item (.upload up.id) (some (.upload up)) := by
  have hget := get_putUpload h
  refine (item_uploads s up.id fun k hk => (hget k).trans (if_neg hk)).trans ?_
  rw [hget, if_pos rfl]
  rfl

end Items

end ServerBee.Files
