/-
Files behind directory entries.

An entry at a place leads to an inode, and the inode has the content; several entries may share one. `create` is an exclusive
create, `write` truncates or creates, `overwrite` writes through an open file, `rename` replaces its destination. A mark says
that the file at a place was created as a temporary one; `visible` is what a reader of unmarked files finds. In a sound disk a
marked file has one entry, so that work on it changes nothing that is visible, and nothing at another marked place.
-/
import Mathlib.Tactic

namespace ServerBee.Lib

variable {L β : Type}

structure Disk (L β : Type) where
  files : L → Option ℕ
  data : ℕ → List β
  /-- inodes below are in use -/
  inodes : ℕ
  temporary : L → Bool

namespace Disk

def read (d : Disk L β) (l : L) : Option (List β) := (d.files l).map d.data

def visible (d : Disk L β) (l : L) : Option (List β) := if d.temporary l then none else d.read l

/-- the bytes from an offset on are replaced -/
def splice (content : List β) (offset : ℕ) (bytes : List β) : List β :=
  content.take offset ++ bytes ++ content.drop (offset + bytes.length)

section Operations

variable [DecidableEq L]

def create (d : Disk L β) (l : L) : Option (Disk L β) :=
  match d.files l with
  | some _ => none
  | none => some {
      files := Function.update d.files l (some d.inodes)
      data := Function.update d.data d.inodes []
      inodes := d.inodes + 1
      temporary := Function.update d.temporary l true }

def write (d : Disk L β) (l : L) (bytes : List β) : Disk L β :=
  match d.files l with
  | some i => { d with data := Function.update d.data i bytes, temporary := Function.update d.temporary l true }
  | none => {
      files := Function.update d.files l (some d.inodes)
      data := Function.update d.data d.inodes bytes
      inodes := d.inodes + 1
      temporary := Function.update d.temporary l true }

def overwrite (d : Disk L β) (i offset : ℕ) (bytes : List β) : Disk L β :=
  { d with data := Function.update d.data i (splice (d.data i) offset bytes) }

def remove (d : Disk L β) (l : L) : Disk L β :=
  { d with files := Function.update d.files l none, temporary := Function.update d.temporary l false }

/-- two entries of one file stay -/
def rename (d : Disk L β) (src dst : L) : Option (Disk L β) :=
  match d.files src with
  | none => none
  | some i =>
    if d.files dst = some i then some { d with temporary := Function.update d.temporary dst false }
    else some { d with
      files := Function.update (Function.update d.files src none) dst (some i)
      temporary := Function.update (Function.update d.temporary src false) dst false }

end Operations

/-! ## Sound disks -/

structure Sound (d : Disk L β) : Prop where
  alone : ∀ l l' i, d.temporary l = true → d.files l = some i → d.files l' = some i → l' = l
  drawn : ∀ l i, d.files l = some i → i < d.inodes

/-- the disks agree on an entry: the inode, its content and the mark -/
structure Same (d d' : Disk L β) (l : L) : Prop where
  files : d'.files l = d.files l
  data : ∀ i, d.files l = some i → d'.data i = d.data i
  temporary : d'.temporary l = d.temporary l

theorem Same.refl (d : Disk L β) (l : L) : Same d d l := ⟨rfl, fun _ _ => rfl, rfl⟩

theorem Same.trans {d d' d'' : Disk L β} {l : L} (h : Same d d' l) (h' : Same d' d'' l) : Same d d'' l :=
  ⟨h'.files.trans h.files, fun i hi => (h'.data i (h.files.trans hi)).trans (h.data i hi), h'.temporary.trans h.temporary⟩

theorem Same.read {d d' : Disk L β} {l : L} (h : Same d d' l) : d'.read l = d.read l := by
  simp only [Disk.read, h.files]
  cases hl : d.files l with
  | none => rfl
  | some i => simp only [Option.map_some, h.data i hl]

theorem Same.visible {d d' : Disk L β} {l : L} (h : Same d d' l) : d'.visible l = d.visible l := by
  simp only [Disk.visible, h.read, h.temporary]

theorem visible_of_temporary {d : Disk L β} {l : L} (h : d.temporary l = true) : d.visible l = none := if_pos h

theorem visible_of_files {d : Disk L β} {l : L} (h : d.files l = none) : d.visible l = none := by
  simp [visible, read, h]

theorem length_splice (content : List β) {offset : ℕ} (bytes : List β) (h : offset ≤ content.length) :
    (splice content offset bytes).length = max content.length (offset + bytes.length) := by
  simp only [splice, List.length_append, List.length_take, List.length_drop]
  omega

theorem take_splice (content : List β) {offset : ℕ} (bytes : List β) (h : offset ≤ content.length) :
    (splice content offset bytes).take offset = content.take offset := by
  have htake : (content.take offset).length = offset := by
    rw [List.length_take]
    omega
  rw [splice, List.append_assoc, List.take_append, htake, List.take_of_length_le htake.le, Nat.sub_self, List.take_zero,
    List.append_nil]

theorem take_splice_add (content : List β) {offset : ℕ} (bytes : List β) (h : offset ≤ content.length) :
    (splice content offset bytes).take (offset + bytes.length) = content.take offset ++ bytes := by
  have htake : (content.take offset ++ bytes).length = offset + bytes.length := by
    rw [List.length_append, List.length_take]
    omega
  rw [splice, List.take_append, htake, List.take_of_length_le htake.le, Nat.sub_self, List.take_zero, List.append_nil]

section Changes

variable [DecidableEq L] {d d' : Disk L β} {l k : L}

/-! ## One entry changes -/

theorem create_spec (hd : d.Sound) (h : d.create l = some d') :
    d'.Sound ∧ d'.read l = some [] ∧ d'.temporary l = true ∧ d.files l = none ∧ ∀ k, k ≠ l → Same d d' k := by
  unfold create at h
  cases hl : d.files l with
  | some i =>
    rw [hl] at h
    cases h
  | none =>
    rw [hl] at h
    obtain rfl := Option.some.inj h
    have hnew (k : L) : d.files k ≠ some d.inodes := fun hk => absurd (hd.drawn k _ hk) (Nat.lt_irrefl _)
    refine ⟨⟨fun k k' i hk hi hi' => ?_, fun k i hi => ?_⟩, ?_, ?_, rfl, fun k hne => ⟨?_, fun i hi => ?_, ?_⟩⟩
    · dsimp only at hk hi hi'
      by_cases hkl : k = l
      · subst hkl
        rw [Function.update_self] at hi
        obtain rfl := Option.some.inj hi
        by_contra hne
        rw [Function.update_of_ne hne] at hi'
        exact hnew k' hi'
      · rw [Function.update_of_ne hkl] at hk hi
        by_cases hkl' : k' = l
        · subst hkl'
          rw [Function.update_self] at hi'
          obtain rfl := Option.some.inj hi'
          exact absurd hi (hnew k)
        · rw [Function.update_of_ne hkl'] at hi'
          exact hd.alone k k' i hk hi hi'
    · dsimp only at hi ⊢
      by_cases hkl : k = l
      · rw [hkl, Function.update_self] at hi
        rw [← Option.some.inj hi]
        exact Nat.lt_succ_self _
      · rw [Function.update_of_ne hkl] at hi
        exact Nat.lt_succ_of_lt (hd.drawn k i hi)
    · simp [read]
    · simp
    · exact Function.update_of_ne hne ..
    · exact Function.update_of_ne (Nat.ne_of_lt (hd.drawn k i hi)) ..
    · exact Function.update_of_ne hne ..

theorem write_spec (hd : d.Sound) (hl : d.visible l = none) (bytes : List β) :
    (d.write l bytes).Sound ∧ (d.write l bytes).read l = some bytes ∧ (d.write l bytes).temporary l = true ∧
      ∀ k, k ≠ l → Same d (d.write l bytes) k := by
  cases hfile : d.files l with
  | none =>
    -- a new file: as an exclusive create, with other content
    obtain ⟨d', hcreate⟩ : ∃ d', d.create l = some d' := by simp [create, hfile]
    obtain ⟨hsound, -, hmark, -, hsame⟩ := create_spec hd hcreate
    have hwrite : d.write l bytes = { d' with data := Function.update d.data d.inodes bytes } := by
      simp only [create, hfile, Option.some.injEq] at hcreate
      rw [← hcreate]
      simp [write, hfile]
    have hfiles : d'.files l = some d.inodes := by
      simp only [create, hfile, Option.some.injEq] at hcreate
      rw [← hcreate]
      simp
    rw [hwrite]
    refine ⟨⟨hsound.alone, hsound.drawn⟩, by simp [read, hfiles], hmark, fun k hne => ⟨(hsame k hne).files, fun i hi => ?_,
      (hsame k hne).temporary⟩⟩
    exact Function.update_of_ne (Nat.ne_of_lt (hd.drawn k i hi)) ..
  | some i =>
    have hmark : d.temporary l = true := by
      by_contra hno
      rw [visible, if_neg hno, read, hfile] at hl
      cases hl
    simp only [write, hfile]
    refine ⟨⟨fun k k' j hk hj hj' => ?_, hd.drawn⟩, by simp [read, hfile], by simp, fun k hne => ⟨rfl, fun j hj => ?_, ?_⟩⟩
    · dsimp only at hk hj hj'
      by_cases hkl : k = l
      · subst hkl
        exact hd.alone k k' j hmark hj hj'
      · rw [Function.update_of_ne hkl] at hk
        exact hd.alone k k' j hk hj hj'
    · refine Function.update_of_ne (fun heq => hne ?_) ..
      exact hd.alone l k i hmark hfile (heq ▸ hj)
    · exact Function.update_of_ne hne ..

omit [DecidableEq L] in
theorem overwrite_spec (hd : d.Sound) {i : ℕ} (hfile : d.files l = some i) (hmark : d.temporary l = true) (offset : ℕ)
    (bytes : List β) :
    (d.overwrite i offset bytes).Sound ∧ (d.overwrite i offset bytes).read l = some (splice (d.data i) offset bytes) ∧
      ∀ k, k ≠ l → Same d (d.overwrite i offset bytes) k := by
  refine ⟨⟨hd.alone, hd.drawn⟩, by simp [read, overwrite, hfile], fun k hne => ⟨rfl, fun j hj => ?_, rfl⟩⟩
  refine Function.update_of_ne (fun heq => hne ?_) ..
  exact hd.alone l k i hmark hfile (heq ▸ hj)

theorem remove_spec (hd : d.Sound) (l : L) : (d.remove l).Sound ∧ (d.remove l).files l = none ∧
    ∀ k, k ≠ l → Same d (d.remove l) k := by
  have hof {k : L} {i : ℕ} (hi : (d.remove l).files k = some i) : k ≠ l ∧ d.files k = some i := by
    by_cases hkl : k = l
    · subst hkl
      simp [remove] at hi
    · exact ⟨hkl, (Function.update_of_ne hkl ..).symm.trans hi⟩
  refine ⟨⟨fun k k' i hk hi hi' => ?_, fun k i hi => hd.drawn k i (hof hi).2⟩, by simp [remove], fun k hne =>
    ⟨Function.update_of_ne hne .., fun _ _ => rfl, Function.update_of_ne hne ..⟩⟩
  obtain ⟨hne, hi⟩ := hof hi
  exact hd.alone k k' i ((Function.update_of_ne hne ..).symm.trans hk) hi (hof hi').2

/-- what is visible stays, when work on an entry shows nothing -/
theorem visible_congr (hsame : ∀ k, k ≠ l → Same d d' k) (hl : d.visible l = none) (hl' : d'.visible l = none) (k : L) :
    d'.visible k = d.visible k := by
  by_cases hk : k = l
  · rw [hk, hl, hl']
  · exact (hsame k hk).visible

theorem foldl_remove_spec (keeps : L → Bool) (ls : List L) (hd : d.Sound) (hls : ∀ l ∈ ls, d.visible l = none) :
    (ls.foldl (fun d l => if keeps l then d else d.remove l) d).Sound ∧
      (∀ k, k ∉ ls → Same d (ls.foldl (fun d l => if keeps l then d else d.remove l) d) k) ∧
      ∀ k, (ls.foldl (fun d l => if keeps l then d else d.remove l) d).visible k = d.visible k := by
  induction ls generalizing d with
  | nil => exact ⟨hd, fun k _ => .refl d k, fun _ => rfl⟩
  | cons l ls ih =>
    rw [List.foldl_cons]
    by_cases hkeep : keeps l = true
    · rw [if_pos hkeep]
      obtain ⟨hsound, hsame, hvisible⟩ := ih hd fun k hk => hls k (List.mem_cons_of_mem l hk)
      exact ⟨hsound, fun k hk => hsame k fun hmem => hk (List.mem_cons_of_mem l hmem), hvisible⟩
    · rw [if_neg hkeep]
      obtain ⟨hremoved, hnone, hother⟩ := remove_spec hd l
      have hshown := visible_congr hother (hls l List.mem_cons_self) (visible_of_files hnone)
      obtain ⟨hsound, hsame, hvisible⟩ := ih hremoved fun k hk => (hshown k).trans (hls k (List.mem_cons_of_mem l hk))
      refine ⟨hsound, fun k hk => ?_, fun k => (hvisible k).trans (hshown k)⟩
      obtain ⟨hne, hk⟩ := not_or.1 fun hor => hk (List.mem_cons.2 hor)
      exact (hother k hne).trans (hsame k hk)

/-- the destination gets the file, and nobody else notices -/
theorem rename_spec (hd : d.Sound) {src dst : L} (hmark : d.temporary src = true) (hne : src ≠ dst)
    (h : d.rename src dst = some d') :
    d'.Sound ∧ d'.visible dst = d.read src ∧ d'.visible src = none ∧ d'.temporary dst = false ∧
      ∀ k, k ≠ src → k ≠ dst → Same d d' k := by
  unfold rename at h
  cases hsrc : d.files src with
  | none =>
    rw [hsrc] at h
    cases h
  | some i =>
    rw [hsrc] at h
    dsimp only at h
    have hdst : d.files dst ≠ some i := fun hdst => hne (hd.alone src dst i hmark hsrc hdst).symm
    rw [if_neg hdst] at h
    obtain rfl := Option.some.inj h
    refine ⟨⟨fun k k' j hk hj hj' => ?_, fun k j hj => ?_⟩, ?_, ?_, ?_, fun k hks hkd => ⟨?_, fun _ _ => rfl, ?_⟩⟩
    · dsimp only at hk hj hj'
      by_cases hkd : k = dst
      · simp [hkd] at hk
      · rw [Function.update_of_ne hkd] at hk hj
        by_cases hks : k = src
        · simp [hks] at hk
        · rw [Function.update_of_ne hks] at hk hj
          by_cases hkd' : k' = dst
          · subst hkd'
            rw [Function.update_self] at hj'
            -- the file of `src` has one entry, and `k` is another
            rw [← Option.some.inj hj'] at hj
            exact absurd (hd.alone src k i hmark hsrc hj) hks
          · rw [Function.update_of_ne hkd'] at hj'
            by_cases hks' : k' = src
            · simp [hks'] at hj'
            · rw [Function.update_of_ne hks'] at hj'
              exact hd.alone k k' j hk hj hj'
    · dsimp only at hj ⊢
      by_cases hkd : k = dst
      · rw [hkd, Function.update_self] at hj
        rw [← Option.some.inj hj]
        exact hd.drawn src i hsrc
      · rw [Function.update_of_ne hkd] at hj
        by_cases hks : k = src
        · simp [hks] at hj
        · rw [Function.update_of_ne hks] at hj
          exact hd.drawn k j hj
    · simp [visible, read, hsrc]
    · exact visible_of_files (by simp [Function.update_of_ne hne])
    · simp
    · simp only [Function.update_of_ne hkd, Function.update_of_ne hks]
    · simp only [Function.update_of_ne hkd, Function.update_of_ne hks]

end Changes

end Disk

end ServerBee.Lib
