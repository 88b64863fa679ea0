/-
Uploads and writes are all-or-nothing (`file_manager.rs`).

A step works on the temporary entry of one holder, and shows nothing but for the rename that replaces a target. What breaks
this (`Guarded`): a path without a file name, whose reservation nobody holds; a `cancel_all` while a start or a finish is at an
await; and a temporary name of `write_file` that is taken, by a file, by another write or by the target itself.
-/
import ServerBee.Files.Holders
import ServerBee.Lib.Run

namespace ServerBee.Files

open ServerBee.Lib

-- the equations of `step` are made here, once for the dozen proofs below that start from them
attribute [local simp] step

/-! ## What a run must do -/

/-- nothing is left to do but to return Ok -/
def Call.moved : Call → Bool
  | .finish _ .moved | .write _ .moved => true
  | _ => false

/-- the rename of a call replaces the entry -/
inductive Commits (s s' : State) (l : Loc) : Prop where
  | finish (k : ℕ) (up : Upload) (htarget : up.target = l) (hcall : s.calls k = some (.finish up .moving))
    (hdone : s'.calls k = some (.finish up .moved))
  | write (k : ℕ) (w : Write) (htarget : w.target = l) (hcall : s.calls k = some (.write w .moving))
    (hdone : s'.calls k = some (.write w .moved))

/-- one step of the contents and of the answers -/
structure Honest (s s' : State) : Prop where
  changed : ∀ l, s'.disk.visible l ≠ s.disk.visible l → Commits s s' l
  finished : ∀ k up, s.calls k = some (.finish up .moving) → s'.calls k = some (.finish up .moved) →
    s'.disk.visible up.target = some up.acked.flatten ∧ up.acked.flatten.length = up.size
  wrote : ∀ k w, s.calls k = some (.write w .moving) → s'.calls k = some (.write w .moved) →
    s'.disk.visible w.target = some w.content
  committed : ∀ k call, s.calls k = some call → call.moved = true → s'.calls k = some call ∨ s'.answers k = some true
  answered : ∀ k, s.answers k ≠ some true → s'.answers k = some true → ∃ call, s.calls k = some call ∧ call.moved = true

/-- what holds in every state -/
structure Sound (s : State) : Prop where
  one : ∀ h h' i i' p, s.item h = some i → s.item h' = some i' → i.path = some p → i'.path = some p → h = h'
  idle : (∀ h i, s.item h = some i → i.path = none) → ∀ p, s.targets p = none

/-! ## The condition -/

/-- nobody but the call has the temporary entry -/
def State.Free (s : State) (k : ℕ) (l : Loc) : Prop := ∀ h i, s.item h = some i → h ≠ .call k → i.temp ≠ some l

def Guarded (s : State) : Op → Prop
  | .startUpload _ path _ => (fileName (components path)).isSome
  | .cancelAll _ => s.starting = none ∧ ∀ k up phase, s.calls k ≠ some (.finish up phase)
  | .proceed k _ =>
    match s.calls k with
    | some (.write w .writing) => w.tmp ≠ w.target ∧ s.disk.visible w.tmp = none ∧ s.Free k w.tmp
    | some (.write w .moving) => s.Free k w.target
    | some (.finish up .moving) => s.Free k up.target
    | _ => True
  | _ => True

/-! ## Steps that show nothing -/

section Quiet

variable {s s' : State} {k : ℕ}

theorem Honest.quiet (hvisible : ∀ l, s'.disk.visible l = s.disk.visible l)
    (hcalls : ∀ k call, s'.calls k = some call → s.calls k = some call ∨ call.moved = false)
    (hmoved : ∀ k call, s.calls k = some call → call.moved = true → s'.calls k = some call ∨ s'.answers k = some true)
    (hanswers : ∀ k, s'.answers k = some true → s.answers k = some true ∨ ∃ call, s.calls k = some call ∧ call.moved = true) :
    Honest s s' := by
  refine ⟨fun l hl => absurd (hvisible l) hl, fun k up hcall hdone => ?_, fun k w hcall hdone => ?_, hmoved, fun k hno hyes => ?_⟩
  · rcases hcalls k _ hdone with hsame | hno
    · rw [hcall] at hsame
      cases hsame
    · cases hno
  · rcases hcalls k _ hdone with hsame | hno
    · rw [hcall] at hsame
      cases hsame
    · cases hno
  · exact (hanswers k hyes).resolve_left hno

theorem Honest.still (hvisible : ∀ l, s'.disk.visible l = s.disk.visible l) (hcalls : s'.calls = s.calls)
    (hanswers : s'.answers = s.answers) : Honest s s' := by
  refine .quiet hvisible (fun k call hk => Or.inl ?_) (fun k call hk _ => Or.inl ?_) fun k hk => Or.inl ?_
  · rwa [← hcalls]
  · rwa [hcalls]
  · rwa [← hanswers]

/-- a call that has not replaced its target goes on, or ends without Ok -/
theorem Honest.call {old : Call} {new : Option Call} (hvisible : ∀ l, s'.disk.visible l = s.disk.visible l)
    (hcall : s.calls k = some old) (hold : old.moved = false) (hnew : ∀ call, new = some call → call.moved = false)
    (hcalls : s'.calls = Function.update s.calls k new)
    (hanswers : ∀ j, s'.answers j = some true → s.answers j = some true) : Honest s s' := by
  refine .quiet hvisible (fun j call hj => ?_) (fun j call hj hmoved => Or.inl ?_) fun j hj => Or.inl (hanswers j hj)
  · rw [hcalls] at hj
    by_cases hjk : j = k
    · subst hjk
      rw [Function.update_self] at hj
      exact Or.inr (hnew call hj)
    · rw [Function.update_of_ne hjk] at hj
      exact Or.inl hj
  · have hjk : j ≠ k := by
      intro heq
      subst heq
      obtain rfl := Option.some.inj (hcall.symm.trans hj)
      rw [hold] at hmoved
      cases hmoved
    rw [hcalls, Function.update_of_ne hjk, hj]

/-- a call begins -/
theorem Honest.spawn {call : Call} (hvisible : ∀ l, s'.disk.visible l = s.disk.visible l) (hnone : s.calls s.fresh = none)
    (hmoved : call.moved = false) (hcalls : s'.calls = Function.update s.calls s.fresh (some call))
    (hanswers : s'.answers = s.answers) : Honest s s' := by
  refine .quiet hvisible (fun j call' hj => ?_) (fun j call' hj _ => Or.inl ?_) fun j hj => Or.inl ?_
  · rw [hcalls] at hj
    by_cases hjk : j = s.fresh
    · subst hjk
      rw [Function.update_self] at hj
      rw [← Option.some.inj hj]
      exact Or.inr hmoved
    · rw [Function.update_of_ne hjk] at hj
      exact Or.inl hj
  · have hjk : j ≠ s.fresh := by
      intro heq
      rw [heq, hnone] at hj
      cases hj
    rw [hcalls, Function.update_of_ne hjk, hj]
  · rwa [← hanswers]

/-- a call replaces its target -/
theorem Honest.replaces {old new : Call} (hcall : s.calls k = some old) (hold : old.moved = false)
    (hcalls : s'.calls = Function.update s.calls k (some new)) (hanswers : s'.answers = s.answers)
    (hchanged : ∀ l, s'.disk.visible l ≠ s.disk.visible l → Commits s s' l)
    (hfinish : ∀ up, old = .finish up .moving → s'.disk.visible up.target = some up.acked.flatten ∧ up.acked.flatten.length = up.size)
    (hwrite : ∀ w, old = .write w .moving → s'.disk.visible w.target = some w.content) : Honest s s' := by
  have hother {j : ℕ} (hj : j ≠ k) : s'.calls j = s.calls j := by rw [hcalls, Function.update_of_ne hj]
  refine ⟨hchanged, fun j up hj hdone => ?_, fun j w hj hdone => ?_, fun j call hj hmoved => Or.inl ?_, fun j hno hyes => ?_⟩
  · by_cases hjk : j = k
    · subst hjk
      exact hfinish up (Option.some.inj (hcall.symm.trans hj))
    · rw [hother hjk, hj] at hdone
      cases hdone
  · by_cases hjk : j = k
    · subst hjk
      exact hwrite w (Option.some.inj (hcall.symm.trans hj))
    · rw [hother hjk, hj] at hdone
      cases hdone
  · rw [hother, hj]
    intro hjk
    subst hjk
    obtain rfl := Option.some.inj (hcall.symm.trans hj)
    rw [hold] at hmoved
    cases hmoved
  · rw [hanswers] at hyes
    exact absurd hyes hno

/-- a call that has replaced its target returns Ok -/
theorem Honest.returns {old : Call} (hdisk : s'.disk = s.disk) (hcall : s.calls k = some old) (hmoved : old.moved = true)
    (hcalls : s'.calls = Function.update s.calls k none) (hanswers : s'.answers = Function.update s.answers k (some true)) :
    Honest s s' := by
  refine .quiet (fun l => by rw [hdisk]) (fun j call hj => Or.inl ?_) (fun j call hj _ => ?_) fun j hj => ?_
  · rw [hcalls] at hj
    by_cases hjk : j = k
    · simp [hjk] at hj
    · rwa [Function.update_of_ne hjk] at hj
  · by_cases hjk : j = k
    · subst hjk
      refine Or.inr ?_
      rw [hanswers, Function.update_self]
    · refine Or.inl ?_
      rw [hcalls, Function.update_of_ne hjk, hj]
  · by_cases hjk : j = k
    · subst hjk
      exact Or.inr ⟨old, hcall, hmoved⟩
    · rw [hanswers, Function.update_of_ne hjk] at hj
      exact Or.inl hj

end Quiet

/-! ## Starts -/

def Upholds (s s' : State) : Prop := Inv s' ∧ Honest s s'

section Starts

variable {s : State}

theorem Inv.stays (h : Inv s) : Upholds s s := ⟨h, .still (fun _ => rfl) rfl rfl⟩

theorem Inv.item_fresh (h : Inv s) : s.item (.call s.fresh) = none := by
  simp [State.item, h.drawn s.fresh (Nat.le_refl _)]

theorem Temps.hold {items : Holder → Option Item} {d : Disk Loc UInt8} (h : Temps items d) (holder : Holder) (new : Item)
    (hfits : new.Fits d) (htemp : new.temp = none) : Temps (Function.update items holder (some new)) d := by
  refine h.update holder _ h.sound (fun _ _ l _ _ _ => .refl d l) fun i hi => ?_
  obtain rfl := Option.some.inj hi
  refine ⟨hfits, fun l hl => ?_⟩
  rw [htemp] at hl
  cases hl

theorem startUpload_upholds (fm : FileManager) (h : Inv s) (id path : String) (size : ℕ)
    (hname : (fileName (components path)).isSome) : Upholds s (step fm s (.startUpload id path size)) := by
  simp only [step]
  split
  · exact h.stays
  · rename_i dir hdir
    by_cases htaken : (s.starting.isSome || (s.uploads.get id).isSome || (s.targets (components path)).isSome) = true
    · rw [if_pos htaken]
      exact h.stays
    · rw [if_neg htaken]
      simp only [Bool.or_eq_true, not_or, Bool.not_eq_true, Option.isSome_eq_false_iff, Option.isNone_iff_eq_none] at htaken
      obtain ⟨⟨hstart, hid⟩, hfree⟩ := htaken
      obtain ⟨name, hname⟩ := Option.isSome_iff_exists.1 hname
      rw [hname]
      dsimp only
      have hnone : s.item .start = none := by simp [State.item, hstart]
      refine ⟨⟨?_, ?_, fun up phase hup => ?_, h.drawn⟩, .still (fun _ => rfl) rfl rfl⟩
      · exact (h.temps.hold .start (.start _ .opening) ⟨⟨rfl, rfl, rfl⟩, fun hno => (by cases hno)⟩ rfl).of (item_starting rfl rfl)
      · exact (h.paths.reserve hnone hfree rfl).of (item_starting rfl rfl)
      · obtain ⟨rfl, -⟩ := Prod.mk.inj (Option.some.inj hup)
        exact hid

theorem openTemp_upholds (fm : FileManager) (h : Inv s) (fails : Bool) : Upholds s (step fm s (.openTemp fails)) := by
  simp only [step]
  split
  · rename_i up hstart
    have hitem : s.item .start = some (.start up .opening) := by simp [State.item, hstart]
    have hpath (phase : StartPhase) (p : Path) : (∃ i, some (Item.start up phase) = some i ∧ i.path = some p) ↔
        ∃ i, s.item .start = some i ∧ i.path = some p := by
      rw [hitem]
      simp [Item.path]
    have hid (phase : StartPhase) (up' : Upload) (phase' : StartPhase) (hup : some (up, phase) = some (up', phase')) :
        s.uploads.get up'.id = none := by
      obtain ⟨rfl, -⟩ := Prod.mk.inj (Option.some.inj hup)
      exact h.starting up _ hstart
    have hfresh := (h.temps.fits .start _ hitem).1
    split
    · rename_i disk hdisk
      obtain ⟨-, hdisk⟩ : ¬ fails = true ∧ s.disk.create up.tmp = some disk := by
        by_cases hf : fails = true
        · simp [hf] at hdisk
        · exact ⟨hf, by simpa [hf] using hdisk⟩
      obtain ⟨hsound, hread, hmark, hnew, hsame⟩ := Disk.create_spec h.temps.sound hdisk
      refine ⟨⟨?_, ?_, hid _, h.drawn⟩, .still ?_ rfl rfl⟩
      · refine (h.temps.update .start (some (.start up .opened)) hsound (fun k i l hi _ hl => hsame l ?_) fun i hi => ?_).of
          (item_starting rfl rfl)
        · intro heq
          exact (h.temps.marked k i l hi hl).2 (heq ▸ hnew)
        · obtain rfl := Option.some.inj hi
          refine ⟨⟨hfresh, fun _ => hread⟩, fun l hl => ?_⟩
          obtain rfl := Option.some.inj hl
          refine ⟨hmark, fun hno => ?_, fun k i' hi' _ hl' => (h.temps.marked k i' _ hi' hl').2 hnew⟩
          rw [Disk.read, hno] at hread
          cases hread
      · exact (h.paths.relabel .start _ (hpath .opened)).of (item_starting rfl rfl)
      · exact Disk.visible_congr hsame (Disk.visible_of_files hnew) (Disk.visible_of_temporary hmark)
    · refine ⟨⟨?_, ?_, hid _, h.drawn⟩, .still (fun _ => rfl) rfl rfl⟩
      · exact (h.temps.hold .start (.start up .failed) ⟨hfresh, fun hno => (by cases hno)⟩ rfl).of (item_starting rfl rfl)
      · exact (h.paths.relabel .start _ (hpath .failed)).of (item_starting rfl rfl)
  · exact h.stays

theorem startReturn_upholds (fm : FileManager) (h : Inv s) : Upholds s (step fm s .startReturn) := by
  simp only [step]
  split
  · rename_i up hstart
    have hitem : s.item .start = some (.start up .opened) := by simp [State.item, hstart]
    have hid := h.starting up _ hstart
    have hother : s.item (.upload up.id) = none := by simp [State.item, hid]
    obtain ⟨⟨hnext, hacked, hchunk⟩, hread⟩ := h.temps.fits .start _ hitem
    have hfits : up.Fits s.disk := by
      refine ⟨⟨[], hread rfl, by simp [hacked], Nat.zero_le _⟩, by simp [hacked, hnext], fun chunk hc => ?_⟩
      rw [hchunk] at hc
      cases hc
    have hstarted : State.item { s with starting := none } = Function.update s.item .start none := item_starting rfl rfl
    have hgone : ({ s with starting := none } : State).uploads.get up.id = none := hid
    refine ⟨⟨?_, ?_, fun up' phase hno => (by cases hno), h.drawn⟩, .still (fun _ => rfl) rfl rfl⟩
    · rw [item_putUpload hgone, hstarted]
      exact h.temps.move hitem hother hfits fun l hl => hl
    · rw [item_putUpload hgone, hstarted]
      exact h.paths.move hitem hother rfl
  · rename_i up hstart
    have hitem : s.item .start = some (.start up .failed) := by simp [State.item, hstart]
    refine ⟨⟨?_, ?_, fun up' phase hno => (by cases hno), h.drawn⟩, .still (fun _ => rfl) rfl rfl⟩
    · exact (h.temps.drop .start).of (item_starting rfl rfl)
    · exact (h.paths.release hitem rfl).of (item_starting rfl rfl)
  · exact h.stays

end Starts

/-! ## Chunks -/

section Chunks

variable {s : State} {up old : Upload}

theorem item_upload (hget : s.uploads.get up.id = some old) : s.item (.upload up.id) = some (.upload old) := by
  simp [State.item, hget]

/-- the entry of an upload changes, and perhaps its file -/
theorem Inv.setUpload (h : Inv s) (up : Upload) (hget : s.uploads.get up.id = some old) (hpath : up.path = old.path) {d : Disk Loc UInt8}
    (htemps : Temps (Function.update s.item (.upload up.id) (some (.upload up))) d) :
    Inv ({ s with disk := d }.setUpload up) := by
  have hgetd : ({ s with disk := d } : State).uploads.get up.id = some old := hget
  refine ⟨?_, ?_, fun up' phase hup => ?_, h.drawn⟩
  · rw [item_setUpload hgetd]
    exact htemps
  · rw [item_setUpload hgetd]
    refine h.paths.relabel _ _ fun p => ?_
    rw [item_upload hget]
    simp [Item.path, hpath]
  · have hnone := h.starting up' phase hup
    rw [get_setUpload hgetd, if_neg]
    · exact hnone
    · intro heq
      rw [heq, hget] at hnone
      cases hnone

/-- the chunk of an upload changes, and its file does not -/
theorem Inv.setChunk (h : Inv s) {id : String} (hget : s.uploads.get id = some up) (chunk : Option Chunk)
    (hchunk : ∀ c, chunk = some c → up.nextOffset + c.bytes.length ≤ up.size ∧ ∀ file, c.file = some file →
      s.disk.files up.tmp = some file) : Upholds s (s.setUpload { up with chunk := chunk }) := by
  obtain rfl : up.id = id := (Table.get_eq_some.1 hget).2
  have hfits := h.temps.fits _ _ (item_upload hget)
  refine ⟨h.setUpload { up with chunk := chunk } hget rfl ?_, .still (fun _ => rfl) rfl rfl⟩
  exact h.temps.relabel (item_upload hget) ⟨hfits.content, hfits.acked, hchunk⟩ fun l hl => hl

theorem receiveChunk_upholds (fm : FileManager) (h : Inv s) (id : String) (offset : ℕ) (data : Option Bytes) :
    Upholds s (step fm s (.receiveChunk id offset data)) := by
  simp only [step]
  split
  · rename_i bytes up hget
    by_cases hrefused : maxFileChunkSize < bytes.length ∨ up.chunk.isSome = true ∨ offset ≠ up.nextOffset
    · rw [if_pos hrefused]
      exact h.stays
    · rw [if_neg hrefused]
      by_cases hlarge : 2 ^ 64 ≤ offset + bytes.length ∨ up.size < offset + bytes.length ∨
          fm.config.maxFileSize < offset + bytes.length
      · rw [if_pos hlarge]
        exact h.stays
      · rw [if_neg hlarge]
        refine h.setChunk hget _ fun c hc => ?_
        obtain rfl := Option.some.inj hc
        refine ⟨?_, fun file hno => (by cases hno)⟩
        simp only [not_or, not_lt, not_not] at hrefused hlarge
        rw [← hrefused.2.2]
        exact hlarge.2.1
  · exact h.stays

theorem openChunk_upholds (fm : FileManager) (h : Inv s) (id : String) (fails : Bool) :
    Upholds s (step fm s (.openChunk id fails)) := by
  simp only [step]
  cases hget : s.uploads.get id with
  | none => exact h.stays
  | some up =>
    dsimp only
    split
    · rename_i bytes hchunk
      split
      · rename_i file hfile
        refine h.setChunk hget _ fun c hc => ?_
        obtain rfl := Option.some.inj hc
        obtain rfl : up.id = id := (Table.get_eq_some.1 hget).2
        refine ⟨((h.temps.fits _ _ (item_upload hget)).chunk _ hchunk).1, fun file' hfile' => ?_⟩
        obtain rfl := Option.some.inj hfile'
        by_cases hf : fails = true
        · simp [hf] at hfile
        · simpa [hf] using hfile
      · exact h.setChunk hget none fun c hno => by cases hno
    · exact h.stays

/-- bytes from the acknowledged end on, of which a prefix is acknowledged -/
theorem Inv.overwrite (h : Inv s) {id : String} (hget : s.uploads.get id = some up) {chunk : Chunk} {file : ℕ}
    (hchunk : up.chunk = some chunk) (hfile : chunk.file = some file) (bytes : Bytes) (acked : List Bytes) (nextOffset : ℕ)
    (hlen : bytes.length ≤ chunk.bytes.length) (hacked : acked.flatten.length = nextOffset)
    (hcontent : ∀ content : Bytes, content.take up.nextOffset = up.acked.flatten → up.nextOffset ≤ content.length →
      (Disk.splice content up.nextOffset bytes).take nextOffset = acked.flatten) :
    Upholds s ({ s with disk := s.disk.overwrite file up.nextOffset bytes }.setUpload
      { up with nextOffset := nextOffset, acked := acked, chunk := none }) := by
  obtain rfl : up.id = id := (Table.get_eq_some.1 hget).2
  have hitem := item_upload hget
  obtain ⟨⟨content, hread, htake, hsize⟩, hlength, hfits⟩ := h.temps.fits _ _ hitem
  obtain ⟨hroom, hopen⟩ := hfits chunk hchunk
  have hfiles := hopen file hfile
  have hmark := (h.temps.marked _ _ _ hitem rfl).1
  obtain ⟨hsound, hread', hsame⟩ := Disk.overwrite_spec h.temps.sound hfiles hmark up.nextOffset bytes
  have hdata : s.disk.data file = content := by
    rw [Disk.read, hfiles] at hread
    exact Option.some.inj hread
  have hoffset : up.nextOffset ≤ content.length := by
    rw [← hlength, ← htake, List.length_take]
    exact Nat.min_le_right ..
  have hvisible := Disk.visible_of_temporary hmark
  refine ⟨h.setUpload { up with nextOffset := nextOffset, acked := acked, chunk := none } hget rfl (h.temps.update _ _ hsound
    (fun k i l hi hk hl => ?_) fun i hi => ?_), .still (Disk.visible_congr hsame hvisible (Disk.visible_of_temporary hmark)) rfl rfl⟩
  · exact h.temps.same hitem rfl hsame k i l hi hk hl
  · obtain rfl := Option.some.inj hi
    refine ⟨⟨⟨_, hread', ?_, ?_⟩, hacked, fun c hno => (by cases hno)⟩, fun l hl => ?_⟩
    · rw [hdata]
      exact hcontent content htake hoffset
    · rw [hdata, Disk.length_splice content bytes hoffset]
      exact max_le hsize ((Nat.add_le_add_left hlen _).trans hroom)
    · obtain rfl := Option.some.inj hl
      refine ⟨hmark, ?_, fun k i' hi' hk hl' => hk (h.temps.one k _ i' _ _ hi' hitem hl' rfl)⟩
      exact (h.temps.marked _ _ _ hitem rfl).2

theorem writeChunk_upholds (fm : FileManager) (h : Inv s) (id : String) (fault : Option ℕ) :
    Upholds s (step fm s (.writeChunk id fault)) := by
  simp only [step]
  cases hget : s.uploads.get id with
  | none => exact h.stays
  | some up =>
    dsimp only
    split
    · rename_i bytes file hchunk
      obtain rfl : up.id = id := (Table.get_eq_some.1 hget).2
      have hlength := (h.temps.fits _ _ (item_upload hget)).acked
      cases fault with
      | none =>
        refine h.overwrite hget hchunk rfl bytes _ _ (Nat.le_refl _) (by simp [hlength]) fun content htake hoffset => ?_
        rw [Disk.take_splice_add content bytes hoffset, htake]
        simp
      | some n =>
        refine h.overwrite hget hchunk rfl (bytes.take n) _ _ (by simp) hlength fun content htake hoffset => ?_
        rw [Disk.take_splice content _ hoffset, htake]
    · exact h.stays

end Chunks

/-! ## Calls -/

section Calls

variable {s : State} {k : ℕ}

theorem item_call {call : Call} (hcall : s.calls k = some call) : s.item (.call k) = some (.call call) := by
  simp [State.item, hcall]

theorem Inv.drawn_update (h : Inv s) {call : Call} (hcall : s.calls k = some call) (new : Option Call) (j : ℕ)
    (hj : s.fresh ≤ j) : Function.update s.calls k new j = none := by
  have hjk : j ≠ k := by
    intro heq
    rw [heq] at hj
    rw [h.drawn k hj] at hcall
    cases hcall
  rw [Function.update_of_ne hjk]
  exact h.drawn j hj

theorem Inv.drawn_spawn (h : Inv s) (call : Call) (j : ℕ) (hj : s.fresh + 1 ≤ j) :
    Function.update s.calls s.fresh (some call) j = none := by
  rw [Function.update_of_ne (by omega)]
  exact h.drawn j (by omega)

theorem Inv.starting_take (h : Inv s) (id : String) (up : Upload) (phase : StartPhase) (hup : s.starting = some (up, phase)) :
    (s.takeUpload id).uploads.get up.id = none := by
  rw [get_takeUpload]
  split_ifs
  · rfl
  · exact h.starting up phase hup

theorem finishUpload_upholds (fm : FileManager) (h : Inv s) (id : String) : Upholds s (step fm s (.finishUpload id)) := by
  simp only [step]
  cases hget : s.uploads.get id with
  | none => exact h.stays
  | some up =>
    dsimp only
    by_cases hbusy : up.chunk.isSome = true
    · rw [if_pos hbusy]
      exact h.stays
    · rw [if_neg hbusy]
      obtain rfl : up.id = id := (Table.get_eq_some.1 hget).2
      have hitem := item_upload hget
      obtain ⟨⟨content, hread, htake, hsize⟩, hlength, -⟩ := h.temps.fits _ _ hitem
      have hfits (phase : FinishPhase) (hphase : phase = .moving → up.nextOffset = up.size) :
          (Item.call (.finish up phase)).Fits s.disk := by
        cases phase with
        | moving =>
          have hfull := hphase rfl
          refine ⟨?_, by rw [hlength, hfull]⟩
          rw [hread, ← htake, List.take_of_length_le (by omega)]
        | _ => trivial
      have htemp (phase : FinishPhase) (l : Loc) (hl : (Item.call (.finish up phase)).temp = some l) :
          (Item.upload up).temp = some l := by
        cases phase with
        | moving => exact hl
        | removing => exact hl
        | _ => cases hl
      refine ⟨⟨?_, ?_, h.starting_take _, h.drawn_spawn _⟩, .spawn (fun _ => rfl) (h.drawn _ (Nat.le_refl _)) ?_ rfl rfl⟩
      · rw [item_spawn, item_takeUpload]
        refine h.temps.move hitem h.item_fresh (hfits _ fun hphase => ?_) (htemp _)
        by_contra hno
        rw [if_neg hno] at hphase
        cases hphase
      · rw [item_spawn, item_takeUpload]
        exact h.paths.move hitem h.item_fresh rfl
      · split_ifs <;> rfl

theorem abortUpload_upholds (fm : FileManager) (h : Inv s) (id : String) : Upholds s (step fm s (.abortUpload id)) := by
  simp only [step]
  cases hget : s.uploads.get id with
  | none => exact h.stays
  | some up =>
    dsimp only
    by_cases hbusy : up.chunk.isSome = true
    · rw [if_pos hbusy]
      exact h.stays
    · rw [if_neg hbusy]
      obtain rfl : up.id = id := (Table.get_eq_some.1 hget).2
      have hitem := item_upload hget
      refine ⟨⟨?_, ?_, h.starting_take _, h.drawn_spawn _⟩, .spawn (fun _ => rfl) (h.drawn _ (Nat.le_refl _)) rfl rfl rfl⟩
      · rw [item_spawn, item_release, item_takeUpload]
        exact h.temps.move hitem h.item_fresh trivial fun l hl => hl
      · rw [item_spawn, item_release, item_takeUpload]
        refine (h.paths.release hitem rfl).relabel _ _ fun p => iff_of_false ?_ ?_
        · rintro ⟨i, hi, hp⟩
          obtain rfl := Option.some.inj hi
          cases hp
        · rintro ⟨i, hi, -⟩
          have hne : Holder.call (s.takeUpload up.id |>.release up.path).fresh ≠ .upload up.id := nofun
          rw [Function.update_of_ne hne] at hi
          exact absurd (h.item_fresh.symm.trans hi) (Option.some_ne_none i).symm

theorem cancelAll_upholds (fm : FileManager) (h : Inv s) (fails : Loc → Bool) (hstart : s.starting = none)
    (hfinish : ∀ k up phase, s.calls k ≠ some (.finish up phase)) : Upholds s (step fm s (.cancelAll fails)) := by
  simp only [step]
  split_ifs
  · exact h.stays
  · -- only calls that abort or write are left
    have hof {holder : Holder} {i : Item} (hi : State.item { s with uploads := ∅ } holder = some i) :
        s.item holder = some i ∧ ∃ k, holder = .call k := by
      cases holder with
      | upload id => cases hi
      | start => simp [State.item, hstart] at hi
      | call k => exact ⟨hi, k, rfl⟩
    have hrow {tmp : Loc} (htmp : tmp ∈ s.uploads.rows.map Upload.tmp) :
        ∃ up, s.item (.upload up.id) = some (.upload up) ∧ up.tmp = tmp := by
      obtain ⟨up, hup, rfl⟩ := List.mem_map.1 htmp
      exact ⟨up, item_upload (Table.get_key hup), rfl⟩
    obtain ⟨hsound, hsame, hvisible⟩ := Disk.foldl_remove_spec fails (s.uploads.rows.map Upload.tmp) h.temps.sound fun l hl => by
      obtain ⟨up, hup, rfl⟩ := hrow hl
      exact Disk.visible_of_temporary (h.temps.marked _ _ _ hup rfl).1
    have hkept {k : Holder} {i : Item} {l : Loc} (hi : State.item { s with uploads := ∅ } k = some i) (hl : i.temp = some l) :=
      hsame l fun hmem => by
        obtain ⟨up, hup, htmp⟩ := hrow hmem
        obtain ⟨hi, j, rfl⟩ := hof hi
        have heq := h.temps.one _ _ _ _ l hi hup hl (congrArg some htmp)
        cases heq
    have hpath {k : Holder} {i : Item} (hi : State.item { s with uploads := ∅ } k = some i) : i.path = none := by
      obtain ⟨hi, j, rfl⟩ := hof hi
      obtain ⟨call, hcall, rfl⟩ := Option.map_eq_some_iff.1 hi
      cases call with
      | finish up phase => exact absurd hcall (hfinish j up phase)
      | abort tmp => rfl
      | write w phase => rfl
    refine ⟨⟨⟨hsound, fun k k' i i' l hi hi' hl hl' => ?_, fun k i l hi hl => ?_, fun k i hi => ?_⟩,
      ⟨fun k k' i i' p hi hi' hp => ?_, fun p => iff_of_false (fun hno => hno rfl) ?_⟩, fun up phase hup => rfl, h.drawn⟩,
      .still hvisible rfl rfl⟩
    · exact h.temps.one k k' i i' l (hof hi).1 (hof hi').1 hl hl'
    · have hl' := hkept hi hl
      dsimp only
      rw [hl'.temporary, hl'.files]
      exact h.temps.marked k i l (hof hi).1 hl
    · exact (h.temps.fits k i (hof hi).1).same fun l hl => hkept hi hl
    · rw [hpath hi] at hp
      cases hp
    · rintro ⟨k, i, hi, hp⟩
      rw [hpath hi] at hp
      cases hp

theorem writeFile_upholds (fm : FileManager) (h : Inv s) (canonical : Loc) (content : Option Bytes) :
    Upholds s (step fm s (.writeFile canonical content)) := by
  simp only [step]
  cases content with
  | none => exact h.stays
  | some bytes =>
    dsimp only
    split_ifs
    · refine ⟨⟨?_, ?_, h.starting, h.drawn_spawn _⟩, .spawn (fun _ => rfl) (h.drawn _ (Nat.le_refl _)) rfl rfl rfl⟩
      · rw [item_spawn]
        exact h.temps.hold _ (.call (.write _ .writing)) trivial rfl
      · rw [item_spawn]
        refine h.paths.relabel _ _ fun p => iff_of_false ?_ ?_
        · rintro ⟨i, hi, hp⟩
          obtain rfl := Option.some.inj hi
          cases hp
        · rintro ⟨i, hi, -⟩
          rw [h.item_fresh] at hi
          cases hi
    · exact h.stays

/-- a call goes on, and perhaps its file changes -/
theorem Inv.goto (h : Inv s) {old : Call} (hcall : s.calls k = some old) (new : Call)
    (hpath : (Item.call new).path = (Item.call old).path) {d : Disk Loc UInt8}
    (htemps : Temps (Function.update s.item (.call k) (some (.call new))) d) : Inv ({ s with disk := d }.goto k new) := by
  refine ⟨?_, ?_, h.starting, h.drawn_update hcall _⟩
  · rw [item_goto]
    exact htemps
  · rw [item_goto]
    refine h.paths.relabel _ _ fun p => ?_
    rw [item_call hcall]
    simp [hpath]

/-- a call that reserves nothing ends -/
theorem Inv.ends (h : Inv s) {old : Call} (hcall : s.calls k = some old) (hpath : (Item.call old).path = none)
    {d : Disk Loc UInt8} (htemps : Temps (Function.update s.item (.call k) none) d) : Inv ({ s with disk := d }.finished k) := by
  refine ⟨?_, ?_, h.starting, h.drawn_update hcall _⟩
  · rw [item_finished]
    exact htemps
  · rw [item_finished]
    refine h.paths.relabel _ _ fun p => ?_
    rw [item_call hcall]
    simp [hpath]

theorem Inv.answer (h : Inv (s.finished k)) (ok : Bool) : Inv (s.answer k ok) := ⟨h.temps, h.paths, h.starting, h.drawn⟩

theorem answers_false {j : ℕ} (hj : (s.answer k false).answers j = some true) : s.answers j = some true := by
  by_cases hjk : j = k
  · simp [State.answer, hjk] at hj
  · simpa [State.answer, hjk] using hj

/-- the temporary file of a call is removed, or stays -/
theorem Temps.unlink (h : Temps s.item s.disk) {old : Call} {tmp : Loc} (hcall : s.calls k = some old)
    (htmp : (Item.call old).temp = some tmp) (new : Option Item) (hnew : ∀ i, new = some i → i.Fits s.disk ∧ i.temp = none)
    (hfits : ∀ i d, new = some i → i.Fits s.disk → i.Fits d) (fails : Bool) :
    Temps (Function.update s.item (.call k) new) (if fails then s.disk else s.disk.remove tmp) ∧
      ∀ l, (if fails then s.disk else s.disk.remove tmp).visible l = s.disk.visible l := by
  have hitem := item_call hcall
  have hfree {d : Disk Loc UInt8} (i : Item) (hi : new = some i) : i.Fits d ∧ ∀ l, i.temp = some l → d.temporary l = true ∧
      d.files l ≠ none ∧ ∀ k' i', s.item k' = some i' → k' ≠ .call k → i'.temp ≠ some l := by
    obtain ⟨hf, hno⟩ := hnew i hi
    refine ⟨hfits i d hi hf, fun l hl => ?_⟩
    rw [hno] at hl
    cases hl
  by_cases hf : fails = true
  · rw [if_pos hf]
    exact ⟨h.update _ _ h.sound (fun _ _ l _ _ _ => .refl _ l) hfree, fun _ => rfl⟩
  · rw [if_neg hf]
    obtain ⟨hsound, hnone, hsame⟩ := Disk.remove_spec h.sound tmp
    have hmark := (h.marked _ _ _ hitem htmp).1
    exact ⟨h.update _ _ hsound (h.same hitem htmp hsame) hfree,
      Disk.visible_congr hsame (Disk.visible_of_temporary hmark) (Disk.visible_of_files hnone)⟩

/-- a call replaces its target: only that shows -/
theorem Inv.rename (h : Inv s) {old : Call} (new : Call) {tmp target : Loc} {content : Bytes} {d : Disk Loc UInt8}
    (hcall : s.calls k = some old) (htmp : (Item.call old).temp = some tmp) (hne : tmp ≠ target)
    (hread : s.disk.read tmp = some content) (hrename : s.disk.rename tmp target = some d) (hfree : s.Free k target)
    (hpath : (Item.call new).path = (Item.call old).path) (hnew : (Item.call new).Fits d ∧ (Item.call new).temp = none) :
    Inv ({ s with disk := d }.goto k new) ∧ d.visible target = some content ∧
      ∀ l, d.visible l ≠ s.disk.visible l → l = target := by
  have hitem := item_call hcall
  have hmark := (h.temps.marked _ _ _ hitem htmp).1
  obtain ⟨hsound, htarget, hgone, -, hsame⟩ := Disk.rename_spec h.temps.sound hmark hne hrename
  refine ⟨h.goto hcall new hpath (h.temps.update _ _ hsound (fun j i l hi hj hl => hsame l ?_ ?_) fun i hi => ?_),
    htarget.trans hread, fun l hl => ?_⟩
  · intro heq
    exact hj (h.temps.one j _ i _ l hi hitem hl (heq ▸ htmp))
  · intro heq
    exact hfree j i hi hj (heq ▸ hl)
  · obtain rfl := Option.some.inj hi
    refine ⟨hnew.1, fun l hl => ?_⟩
    rw [hnew.2] at hl
    cases hl
  · by_contra hno
    refine hl ?_
    by_cases hls : l = tmp
    · rw [hls, hgone, Disk.visible_of_temporary hmark]
    · exact (hsame l hls hno).visible

/-- a write creates its temporary file, or truncates a leftover -/
theorem Inv.write (h : Inv s) {w : Write} (hfree : s.Free k w.tmp)
    (hvisible : s.disk.visible w.tmp = none) (bytes : Bytes) (new : Option Item)
    (hnew : ∀ i, new = some i → i.temp = some w.tmp ∧ i.Fits (s.disk.write w.tmp bytes)) :
    Temps (Function.update s.item (.call k) new) (s.disk.write w.tmp bytes) ∧
      ∀ l, (s.disk.write w.tmp bytes).visible l = s.disk.visible l := by
  obtain ⟨hsound, hread, hmark, hsame⟩ := Disk.write_spec h.temps.sound hvisible bytes
  refine ⟨h.temps.update _ _ hsound (fun j i l hi hj hl => hsame l ?_) fun i hi => ?_,
    Disk.visible_congr hsame hvisible (Disk.visible_of_temporary hmark)⟩
  · intro heq
    exact hfree j i hi hj (heq ▸ hl)
  · obtain ⟨htmp, hfits⟩ := hnew i hi
    refine ⟨hfits, fun l hl => ?_⟩
    obtain rfl := Option.some.inj (htmp.symm.trans hl)
    refine ⟨hmark, fun hno => ?_, fun j i' hi' hj hl' => hfree j i' hi' hj hl'⟩
    rw [Disk.read, hno] at hread
    cases hread

theorem rename_of_fault {fault : Option Fault} {d d' : Disk Loc UInt8} {src dst : Loc}
    (h : (if fault.isSome then none else d.rename src dst) = some d') : d.rename src dst = some d' := by
  cases fault with
  | none => exact h
  | some fault => cases h

theorem proceed_finish_upholds (h : Inv s) (fault : Option Fault) {up : Upload} {phase : FinishPhase}
    (hcall : s.calls k = some (.finish up phase)) (hfree : phase = .moving → s.Free k up.target) :
    Upholds s (proceed k fault s (.finish up phase)) := by
  have hitem := item_call hcall
  cases phase with
  | moving =>
    simp only [proceed]
    split
    · rename_i d hrename
      obtain ⟨hread, hlength⟩ := h.temps.fits _ _ hitem
      obtain ⟨hinv, htarget, hchanged⟩ := h.rename (.finish up .moved) hcall rfl up.tmp_ne hread
        (rename_of_fault hrename) (hfree rfl) rfl ⟨trivial, rfl⟩
      refine ⟨hinv, .replaces hcall rfl rfl rfl (fun l hl => ?_) (fun up' hup => ?_) fun w hno => by cases hno⟩
      · obtain rfl := hchanged l hl
        exact .finish k up rfl hcall (Function.update_self ..)
      · obtain ⟨rfl, -⟩ := Call.finish.inj hup
        exact ⟨htarget, hlength⟩
    · refine ⟨h.goto (d := s.disk) hcall (.finish up .removing) rfl (h.temps.relabel hitem trivial fun l hl => hl),
        .call (fun _ => rfl) hcall rfl (fun call hnew => ?_) rfl fun j hj => hj⟩
      rw [← Option.some.inj hnew]
      rfl
  | removing =>
    simp only [proceed]
    obtain ⟨htemps, hvisible⟩ := h.temps.unlink hcall rfl (some (.call (.finish up .releasing)))
      (fun i hi => by obtain rfl := Option.some.inj hi; exact ⟨trivial, rfl⟩)
      (fun i d hi _ => by obtain rfl := Option.some.inj hi; trivial) fault.isSome
    refine ⟨h.goto hcall (.finish up .releasing) rfl htemps, .call hvisible hcall rfl (fun call hnew => ?_) rfl fun j hj => hj⟩
    rw [← Option.some.inj hnew]
    rfl
  | releasing => exact h.stays
  | moved => exact h.stays

theorem proceed_abort_upholds (h : Inv s) (fault : Option Fault) {tmp : Loc} (hcall : s.calls k = some (.abort tmp)) :
    Upholds s (proceed k fault s (.abort tmp)) := by
  simp only [proceed]
  obtain ⟨htemps, hvisible⟩ := h.temps.unlink hcall rfl none (fun i hi => by cases hi) (fun i d hi => by cases hi) fault.isSome
  exact ⟨h.ends hcall rfl htemps, .call hvisible hcall rfl (fun call hnew => by cases hnew) rfl fun j hj => hj⟩

theorem proceed_write_upholds (h : Inv s) (fault : Option Fault) {w : Write} {phase : WritePhase}
    (hcall : s.calls k = some (.write w phase))
    (hwriting : phase = .writing → w.tmp ≠ w.target ∧ s.disk.visible w.tmp = none ∧ s.Free k w.tmp)
    (hmoving : phase = .moving → s.Free k w.target) : Upholds s (proceed k fault s (.write w phase)) := by
  have hitem := item_call hcall
  have hdropped := h.ends (d := s.disk) hcall rfl (h.temps.drop (.call k))
  cases phase with
  | writing =>
    obtain ⟨hne, hvisible, hfree⟩ := hwriting rfl
    cases fault with
    | none =>
      have hread := (Disk.write_spec h.temps.sound hvisible w.content).2.1
      obtain ⟨htemps, hshown⟩ := h.write hfree hvisible w.content (some (.call (.write w .moving))) fun i hi => by
        obtain rfl := Option.some.inj hi
        exact ⟨rfl, hne, hread⟩
      refine ⟨h.goto hcall (.write w .moving) rfl htemps, .call hshown hcall rfl (fun call hnew => ?_) rfl fun j hj => hj⟩
      rw [← Option.some.inj hnew]
      rfl
    | some fault =>
      cases fault with
      | before =>
        exact ⟨hdropped.answer false, .call (fun _ => rfl) hcall rfl (fun call hnew => by cases hnew) rfl fun j hj => answers_false hj⟩
      | after n =>
        obtain ⟨htemps, hshown⟩ := h.write hfree hvisible (w.content.take n) none fun i hi => by cases hi
        exact ⟨(h.ends hcall rfl htemps).answer false,
          .call hshown hcall rfl (fun call hnew => by cases hnew) rfl fun j hj => answers_false hj⟩
  | moving =>
    simp only [proceed]
    split
    · rename_i d hrename
      obtain ⟨hne, hread⟩ := h.temps.fits _ _ hitem
      obtain ⟨hinv, htarget, hchanged⟩ := h.rename (.write w .moved) hcall rfl hne hread (rename_of_fault hrename)
        (hmoving rfl) rfl ⟨trivial, rfl⟩
      refine ⟨hinv, .replaces hcall rfl rfl rfl (fun l hl => ?_) (fun up hno => by cases hno) fun w' hw => ?_⟩
      · obtain rfl := hchanged l hl
        exact .write k w rfl hcall (Function.update_self ..)
      · obtain ⟨rfl, -⟩ := Call.write.inj hw
        exact htarget
    · exact ⟨hdropped.answer false, .call (fun _ => rfl) hcall rfl (fun call hnew => by cases hnew) rfl fun j hj => answers_false hj⟩
  | moved => exact h.stays

/-- the reservation of a finish is released when it returns -/
theorem Inv.releases (h : Inv s) {up : Upload} {phase : FinishPhase} (hcall : s.calls k = some (.finish up phase)) (ok : Bool) :
    Inv ((s.release up.path).answer k ok) := by
  refine ⟨?_, ?_, h.starting, h.drawn_update hcall _⟩
  · rw [item_answer, item_release]
    exact h.temps.drop _
  · rw [item_answer, item_release]
    exact h.paths.release (item_call hcall) rfl

theorem resume_upholds (fm : FileManager) (h : Inv s) (k : ℕ) : Upholds s (step fm s (.resume k)) := by
  simp only [step]
  split
  · rename_i up hcall
    exact ⟨h.releases hcall false, .call (fun _ => rfl) hcall rfl (fun call hnew => by cases hnew) rfl fun j hj => answers_false hj⟩
  · rename_i up hcall
    exact ⟨h.releases hcall true, .returns rfl hcall rfl rfl rfl⟩
  · rename_i w hcall
    exact ⟨(h.ends (d := s.disk) hcall rfl (h.temps.drop _)).answer true, .returns rfl hcall rfl rfl rfl⟩
  · exact h.stays

end Calls

/-! ## Runs -/

theorem step_upholds (fm : FileManager) {s : State} (h : Inv s) (op : Op) (hguard : Guarded s op) : Upholds s (step fm s op) := by
  cases op with
  | startUpload id path size => exact startUpload_upholds fm h id path size hguard
  | openTemp fails => exact openTemp_upholds fm h fails
  | startReturn => exact startReturn_upholds fm h
  | receiveChunk id offset data => exact receiveChunk_upholds fm h id offset data
  | openChunk id fails => exact openChunk_upholds fm h id fails
  | writeChunk id fault => exact writeChunk_upholds fm h id fault
  | finishUpload id => exact finishUpload_upholds fm h id
  | abortUpload id => exact abortUpload_upholds fm h id
  | cancelAll fails => exact cancelAll_upholds fm h fails hguard.1 hguard.2
  | writeFile canonical content => exact writeFile_upholds fm h canonical content
  | proceed k fault =>
    simp only [step]
    cases hcall : s.calls k with
    | none => exact h.stays
    | some call =>
      simp only [Guarded, hcall] at hguard
      cases call with
      | finish up phase =>
        refine proceed_finish_upholds h fault hcall fun hphase => ?_
        subst hphase
        exact hguard
      | abort tmp => exact proceed_abort_upholds h fault hcall
      | write w phase =>
        refine proceed_write_upholds h fault hcall (fun hphase => ?_) fun hphase => ?_
        · subst hphase
          exact hguard
        · subst hphase
          exact hguard
  | resume k => exact resume_upholds fm h k

theorem Inv.sound {s : State} (h : Inv s) : Sound s := by
  refine ⟨h.paths.one, fun hidle p => ?_⟩
  by_contra hp
  obtain ⟨holder, i, hi, hpath⟩ := (h.paths.reserved p).1 hp
  rw [hidle holder i hi] at hpath
  cases hpath

/-- nothing is in progress -/
structure Started (s : State) : Prop where
  disk : s.disk.Sound
  uploads : s.uploads.rows = []
  targets : ∀ p, s.targets p = none
  starting : s.starting = none
  calls : ∀ k, s.calls k = none

theorem Started.item {s : State} (h : Started s) (holder : Holder) : s.item holder = none := by
  cases holder with
  | upload id =>
    have hget : s.uploads.get id = none := by
      apply Table.get_eq_none.2
      intro up hup
      rw [← Table.mem_rows, h.uploads] at hup
      cases hup
    simp [State.item, hget]
  | start => simp [State.item, h.starting]
  | call k => simp [State.item, h.calls k]

theorem Started.inv {s : State} (h : Started s) : Inv s := by
  have hno {holder : Holder} {i : Item} (hi : s.item holder = some i) : False := by
    rw [h.item holder] at hi
    cases hi
  refine ⟨⟨h.disk, fun k _ i _ l hi => (hno hi).elim, fun k i l hi => (hno hi).elim, fun k i hi => (hno hi).elim⟩,
    ⟨fun k _ i _ p hi => (hno hi).elim, fun p => iff_of_false (fun hp => hp (h.targets p)) ?_⟩, fun up phase hup => ?_,
    fun k _ => h.calls k⟩
  · rintro ⟨k, i, hi, -⟩
    exact hno hi
  · rw [h.starting] at hup
    cases hup

theorem Inv.runs (fm : FileManager) {s : State} (h : Inv s) {ops : List Op} (hops : Along (step fm) Guarded s ops) :
    Inv (runs (step fm) s ops) := by
  have hkeep (s : State) (op : Op) (hs : Inv s) (hop : Guarded s op) : Inv (step fm s op) := (step_upholds fm hs op hop).1
  exact hops.invariant hkeep h

def srv : FileManager where
  config := ⟨["/srv"], [], 100⟩
  canonicalRoots := [["srv"]]
  resolve := fun path => if path = components "/srv" then some ["srv"] else none
  hash := id

/-- two files of one stem -/
def twoFiles : State where
  disk := {
    files := fun l => if l = ⟨["srv"], "a.txt"⟩ then some 0 else if l = ⟨["srv"], "a.md"⟩ then some 1 else none
    data := fun _ => [0]
    inodes := 2
    temporary := fun _ => false }
  uploads := ∅
  targets := fun _ => none
  starting := none
  calls := fun _ => none
  answers := fun _ => none
  fresh := 0

theorem twoFiles_started : Started twoFiles := by
  refine ⟨⟨fun l l' i hl => (by cases hl), fun l i hi => ?_⟩, rfl, fun _ => rfl, rfl, fun _ => rfl⟩
  simp only [twoFiles] at hi ⊢
  split_ifs at hi
  · rw [← Option.some.inj hi]
    decide
  · rw [← Option.some.inj hi]
    decide

def uploadAda : List Op :=
  [.startUpload "t" "/srv/ada.txt" 2, .openTemp false, .startReturn, .receiveChunk "t" 0 (some [1, 2]), .openChunk "t" false,
    .writeChunk "t" none, .finishUpload "t"]

theorem uploadAda_guarded : Along (step srv) Guarded twoFiles uploadAda := by
  have hname : (fileName (components "/srv/ada.txt")).isSome = true := by decide
  exact ⟨hname, trivial, trivial, trivial, trivial, trivial, trivial, trivial⟩

/-- the entry that the rename replaces is free: the finish is alone -/
theorem uploadAda_free : (runs (step srv) twoFiles uploadAda).Free 0 ⟨["srv"], "ada.txt"⟩ := by
  intro holder i hi hne
  cases holder with
  | upload id =>
    have hnone : (runs (step srv) twoFiles uploadAda).uploads.rows = [] := by decide
    have hget : (runs (step srv) twoFiles uploadAda).uploads.get id = none := by
      apply Table.get_eq_none.2
      intro up hup
      rw [← Table.mem_rows, hnone] at hup
      cases hup
    simp [State.item, hget] at hi
  | start =>
    have hnone : (runs (step srv) twoFiles uploadAda).starting = none := by decide
    simp [State.item, hnone] at hi
  | call k =>
    have hk : (runs (step srv) twoFiles uploadAda).fresh ≤ k := by
      have hfresh : (runs (step srv) twoFiles uploadAda).fresh = 1 := by decide
      rw [hfresh]
      exact Nat.pos_of_ne_zero fun heq => hne (heq ▸ rfl)
    simp [State.item, (twoFiles_started.inv.runs srv uploadAda_guarded).drawn k hk] at hi

/-- a `cancel_all` while a start awaits its file takes the reservation away, and a second upload to the path begins -/
example :
    (runs (step srv) twoFiles [.startUpload "t" "/srv/ada.txt" 2, .openTemp false, .cancelAll fun _ => false, .startReturn,
      .startUpload "u" "/srv/ada.txt" 3, .openTemp false, .startReturn]).uploads.rows.map (fun up => (up.id, up.path)) =
        [("t", components "/srv/ada.txt"), ("u", components "/srv/ada.txt")] := by decide

/-- two writes share `a.sb-tmp`: the write of `a.txt` returns Ok with the content of the other -/
example :
    (runs (step srv) twoFiles [.writeFile ⟨["srv"], "a.txt"⟩ (some [1]), .writeFile ⟨["srv"], "a.md"⟩ (some [2]),
      .proceed 0 none, .proceed 1 none, .proceed 0 none, .resume 0]).answers 0 = some true ∧
    (runs (step srv) twoFiles [.writeFile ⟨["srv"], "a.txt"⟩ (some [1]), .writeFile ⟨["srv"], "a.md"⟩ (some [2]),
      .proceed 0 none, .proceed 1 none, .proceed 0 none, .resume 0]).disk.read ⟨["srv"], "a.txt"⟩ = some [2] := by decide

end ServerBee.Files
