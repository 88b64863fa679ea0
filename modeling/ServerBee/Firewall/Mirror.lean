/-
What the agent's firewall mirror knows about the kernel.

`Mirror`: the elements of the kernel's sets are the targets of the entries in `desired`. Four things break it: an entry
that replaces one with the same id and another target; an applied entry that a sync refuses or fails to add again; two
entries with one target of which one is deleted; and a reset that flushes a set and then cannot delete the table.

- `runNft_cases`, `ensureReady_cases`: what a call does to the elements.
- `after_sync`: what a sync leaves, in `desired` and in the kernel.
- `mirror_iff`: for each message, when the mirror is kept.
- `mirror_run`: the same for runs, with the acknowledgements.
-/
import ServerBee.Firewall.Agent

namespace ServerBee.Firewall

open ServerBee.Lib

/-! ## Elements of the kernel -/

/-- a set and an element of it -/
abbrev Slot := NftSet × String

def BlockEntry.slot (e : BlockEntry) : Slot := (e.set, e.target)

def Kernel.elements (k : Kernel) (s : NftSet) : Option (Finset String) := k.bind fun t => t.sets s

def Kernel.has (k : Kernel) (slot : Slot) : Prop := ∃ elements, Kernel.elements k slot.1 = some elements ∧ slot.2 ∈ elements

/-- both sets exist -/
def Kernel.Ready (k : Kernel) : Prop := ∀ s, ∃ elements, Kernel.elements k s = some elements

theorem has_setElements {t : NftTable} {s : NftSet} {elements : Finset String} {slot : Slot} :
    Kernel.has (some (t.setElements s elements)) slot ↔
      if slot.1 = s then slot.2 ∈ elements else Kernel.has (some t) slot := by
  unfold Kernel.has Kernel.elements NftTable.setElements
  split_ifs with h <;> simp [h]

theorem ready_setElements {t : NftTable} {s : NftSet} {elements : Finset String} (h : Kernel.Ready (some t)) :
    Kernel.Ready (some (t.setElements s elements)) := by
  intro s'
  by_cases hs : s' = s
  · exact ⟨elements, by simp [Kernel.elements, NftTable.setElements, hs]⟩
  · obtain ⟨els, hels⟩ := h s'
    exact ⟨els, by simpa [Kernel.elements, NftTable.setElements, hs] using hels⟩

/-- a call that fails changes nothing -/
theorem runNft_fault {e : NftError} {cmd : NftCmd} {k : Kernel} : runNft (some e) cmd k = (.error e, k) := rfl

-- the equations of a call are made here, once for the lemmas about each command
attribute [local simp] runNft nft nftOn isIdempotentSignal in
/-- adding an element to a set that exists -/
theorem runNft_add (s : NftSet) (target : String) {k : Kernel} (h : k.Ready) :
    ∃ k', runNft none (.addElement s target) k = (.ok (), k') ∧ k'.Ready ∧
      ∀ slot, k'.has slot ↔ k.has slot ∨ slot = (s, target) := by
  obtain ⟨elements, hels⟩ := h s
  cases k with
  | none => cases hels
  | some t =>
    have hels : t.sets s = some elements := hels
    by_cases hmem : target ∈ elements
    · refine ⟨some t, by simp [runNft, nft, nftOn, hels, hmem, isIdempotentSignal], h, fun slot => ?_⟩
      refine ⟨Or.inl, ?_⟩
      rintro (hhas | rfl)
      · exact hhas
      · exact ⟨elements, hels, hmem⟩
    · refine ⟨some (t.setElements s (insert target elements)), by simp [runNft, nft, nftOn, hels, hmem],
        ready_setElements h, fun slot => ?_⟩
      rw [has_setElements]
      obtain ⟨s', x⟩ := slot
      by_cases hs : s' = s
      · subst hs
        simp [Kernel.has, Kernel.elements, hels, or_comm]
      · simp [hs]

/-- deleting an element, whether it is there or not -/
theorem runNft_delete (s : NftSet) (target : String) (k : Kernel) :
    ∃ k', runNft none (.deleteElement s target) k = (.ok (), k') ∧ (k.Ready → k'.Ready) ∧
      ∀ slot, k'.has slot ↔ k.has slot ∧ slot ≠ (s, target) := by
  have hsame : ¬ k.has (s, target) → ∀ slot, k.has slot ↔ k.has slot ∧ slot ≠ (s, target) := by
    intro hnot slot
    refine ⟨fun h => ⟨h, ?_⟩, And.left⟩
    rintro rfl
    exact hnot h
  cases k with
  | none =>
    refine ⟨none, by simp [runNft, nft, isIdempotentSignal], id, hsame ?_⟩
    rintro ⟨elements, hels, -⟩
    cases hels
  | some t =>
    cases hels : t.sets s with
    | none =>
      refine ⟨some t, by simp [runNft, nft, nftOn, hels, isIdempotentSignal], id, hsame ?_⟩
      rintro ⟨elements, hels', -⟩
      have hels' : t.sets s = some elements := hels'
      rw [hels] at hels'
      cases hels'
    | some elements =>
      by_cases hmem : target ∈ elements
      · refine ⟨some (t.setElements s (elements.erase target)), by simp [runNft, nft, nftOn, hels, hmem],
          ready_setElements, fun slot => ?_⟩
        rw [has_setElements]
        obtain ⟨s', x⟩ := slot
        by_cases hs : s' = s
        · subst hs
          simp [Kernel.has, Kernel.elements, hels, and_comm]
        · simp [hs]
      · refine ⟨some t, by simp [runNft, nft, nftOn, hels, hmem, isIdempotentSignal], id, hsame ?_⟩
        rintro ⟨elements', hels', hmem'⟩
        have hels' : t.sets s = some elements' := hels'
        rw [hels] at hels'
        cases hels'
        exact hmem hmem'

theorem runNft_flush (s : NftSet) (k : Kernel) :
    (∀ slot, (runNft none (.flushSet s) k).2.has slot ↔ k.has slot ∧ slot.1 ≠ s) ∧
      (k.Ready → (runNft none (.flushSet s) k).2.Ready) := by
  cases k with
  | none =>
    refine ⟨fun slot => ⟨fun h => ?_, fun h => h.1⟩, id⟩
    obtain ⟨elements, hels, -⟩ := h
    cases hels
  | some t =>
    cases hels : t.sets s with
    | none =>
      have hk : (runNft none (.flushSet s) (some t)).2 = some t := by
        simp [runNft, nft, nftOn, hels, isIdempotentSignal]
      rw [hk]
      refine ⟨fun slot => ⟨fun h => ⟨h, ?_⟩, And.left⟩, id⟩
      rintro rfl
      obtain ⟨elements, hels', -⟩ := h
      have hels' : t.sets slot.1 = some elements := hels'
      rw [hels] at hels'
      cases hels'
    | some elements =>
      have hk : (runNft none (.flushSet s) (some t)).2 = some (t.setElements s ∅) := by simp [runNft, nft, nftOn, hels]
      rw [hk]
      refine ⟨fun slot => ?_, ready_setElements⟩
      rw [has_setElements]
      by_cases hs : slot.1 = s <;> simp [hs]

/-! ## The resources -/

/-- the elements stay, and no set disappears -/
def Extends (k k' : Kernel) : Prop :=
  (∀ slot, k'.has slot ↔ k.has slot) ∧ ∀ s, (k.elements s).isSome = true → (k'.elements s).isSome = true

theorem Extends.refl (k : Kernel) : Extends k k := ⟨fun _ => Iff.rfl, fun _ h => h⟩

theorem Extends.trans {k k' k'' : Kernel} (h : Extends k k') (h' : Extends k' k'') : Extends k k'' :=
  ⟨fun slot => (h'.1 slot).trans (h.1 slot), fun s hs => h'.2 s (h.2 s hs)⟩

theorem extends_addTable (k : Kernel) : ∃ t, runNft none .addTable k = (.ok (), some t) ∧ Extends k (some t) := by
  cases k with
  | none =>
    refine ⟨⟨fun _ => none, none⟩, rfl, fun slot => ⟨?_, ?_⟩, fun s h => by cases h⟩
    · rintro ⟨elements, hels, -⟩
      cases hels
    · rintro ⟨elements, hels, -⟩
      cases hels
  | some t => exact ⟨t, rfl, Extends.refl _⟩

theorem extends_addSet (s : NftSet) (t : NftTable) :
    ∃ t', runNft none (.addSet s) (some t) = (.ok (), some t') ∧ Extends (some t) (some t') ∧ (t'.sets s).isSome = true ∧
      t'.chain = t.chain := by
  by_cases h : (t.sets s).isSome = true
  · exact ⟨t, by simp [runNft, nft, nftOn, h], Extends.refl _, h, rfl⟩
  · refine ⟨t.setElements s ∅, by simp [runNft, nft, nftOn, h], ⟨fun slot => ?_, fun s' hs' => ?_⟩,
      by simp [NftTable.setElements], rfl⟩
    · rw [has_setElements]
      rw [Option.not_isSome_iff_eq_none] at h
      by_cases hs : slot.1 = s
      · simp [Kernel.has, Kernel.elements, hs, h]
      · simp [hs]
    · by_cases hs : s' = s
      · simp [Kernel.elements, NftTable.setElements, hs]
      · simpa [Kernel.elements, NftTable.setElements, hs] using hs'

theorem extends_chain (t : NftTable) (rules : List NftSet) : Extends (some t) (some { t with chain := some rules }) :=
  ⟨fun _ => Iff.rfl, fun _ h => h⟩

theorem NftM.bind_ok {α β : Type} {x : NftM α} {f : α → NftM β} {k k' : Kernel} {a : α} (h : x k = (.ok a, k')) :
    (x >>= f) k = f a k' := by
  show (ExceptT.bindCont f (x k).1) (x k).2 = _
  rw [h]
  rfl

theorem NftM.bind_error {α β : Type} {x : NftM α} {f : α → NftM β} {k k' : Kernel} {e : NftError}
    (h : x k = (.error e, k')) : (x >>= f) k = (.error e, k') := by
  show (ExceptT.bindCont f (x k).1) (x k).2 = _
  rw [h]
  rfl

/-- no call that setting up the resources makes fails -/
structure Boots (faults : Faults) (k : Kernel) : Prop where
  table : faults .addTable = none
  sets : ∀ s, faults (.addSet s) = none
  chain : faults .addChain = none
  list : faults .listChain = none
  rules : ∀ s, s ∉ (k.bind NftTable.chain).getD [] → faults (.addRule s) = none

theorem addDropRule_spec (faults : Faults) (listing : List NftSet) (s : NftSet) {t : NftTable} {rules : List NftSet}
    (hchain : t.chain = some rules) :
    (∃ rules', addDropRule faults listing s (some t) = (.ok (), some { t with chain := some rules' }) ∧
        (s ∉ listing → faults (.addRule s) = none)) ∨
      ∃ e, addDropRule faults listing s (some t) = (.error e, some t) ∧ s ∉ listing ∧ faults (.addRule s) ≠ none := by
  unfold addDropRule
  by_cases hmem : s ∈ listing
  · rw [if_pos hmem]
    refine Or.inl ⟨rules, ?_, fun h => absurd hmem h⟩
    rw [← hchain]
    rfl
  · rw [if_neg hmem]
    cases hf : faults (.addRule s) with
    | none =>
      refine Or.inl ⟨rules ++ [s], ?_, fun _ => rfl⟩
      show runNft none (.addRule s) (some t) = _
      simp [runNft, nft, nftOn, hchain]
    | some e => exact Or.inr ⟨e, rfl, hmem, Option.some_ne_none e⟩

/-- what is known of a program that sets up the resources -/
def SetsUp (faults : Faults) (k : Kernel) (p : Except NftError Unit × Kernel) : Prop :=
  Extends k p.2 ∧ (p.1 = .ok () → p.2.Ready) ∧ (p.1 = .ok () ↔ Boots faults k)

theorem SetsUp.error {faults : Faults} {k k' : Kernel} {e : NftError} (hext : Extends k k') (h : ¬ Boots faults k) :
    SetsUp faults k (.error e, k') :=
  ⟨hext, nofun, nofun, fun hb => absurd hb h⟩

/-- setting up the resources leaves the elements; it succeeds exactly if none of its calls fails -/
theorem ensureResources_spec (faults : Faults) (k : Kernel) : SetsUp faults k (ensureResources faults k) := by
  unfold ensureResources
  cases hT : faults .addTable with
  | some e =>
    rw [NftM.bind_error (show run (some e) .addTable k = (.error e, k) from rfl)]
    exact .error (Extends.refl k) fun h => absurd (hT.symm.trans h.table) (Option.some_ne_none e)
  | none =>
    obtain ⟨t, ht, hext⟩ := extends_addTable k
    have hrules : t.chain.getD [] = (k.bind NftTable.chain).getD [] := by
      cases k with
      | none =>
        cases ht
        rfl
      | some t' =>
        cases ht
        rfl
    rw [NftM.bind_ok (show run none .addTable k = _ from ht)]
    cases h4 : faults (.addSet .blockV4) with
    | some e =>
      rw [NftM.bind_error (show run (some e) (.addSet .blockV4) (some t) = (.error e, some t) from rfl)]
      exact .error hext fun h => absurd (h4.symm.trans (h.sets _)) (Option.some_ne_none e)
    | none =>
      obtain ⟨t4, ht4, hext4, hset4, hchain4⟩ := extends_addSet .blockV4 t
      rw [NftM.bind_ok (show run none (.addSet .blockV4) (some t) = _ from ht4)]
      cases h6 : faults (.addSet .blockV6) with
      | some e =>
        rw [NftM.bind_error (show run (some e) (.addSet .blockV6) (some t4) = (.error e, some t4) from rfl)]
        exact .error (hext.trans hext4) fun h => absurd (h6.symm.trans (h.sets _)) (Option.some_ne_none e)
      | none =>
        obtain ⟨t6, ht6, hext6, hset6, hchain6⟩ := extends_addSet .blockV6 t4
        have hsets : Extends k (some t6) := (hext.trans hext4).trans hext6
        have hready : Kernel.Ready (some t6) := by
          intro s
          cases s with
          | blockV4 => exact Option.isSome_iff_exists.1 (hext6.2 .blockV4 hset4)
          | blockV6 => exact Option.isSome_iff_exists.1 hset6
        rw [NftM.bind_ok (show run none (.addSet .blockV6) (some t4) = _ from ht6)]
        cases hC : faults .addChain with
        | some e =>
          rw [NftM.bind_error (show run (some e) .addChain (some t6) = (.error e, some t6) from rfl)]
          exact .error hsets fun h => absurd (hC.symm.trans h.chain) (Option.some_ne_none e)
        | none =>
          set rules := t6.chain.getD [] with hrules6
          have hrules' : rules = (k.bind NftTable.chain).getD [] := by rw [hrules6, hchain6, hchain4, hrules]
          have hchain : ∀ rules', Extends k (some { t6 with chain := some rules' }) := fun rules' =>
            hsets.trans (extends_chain t6 rules')
          rw [NftM.bind_ok (show run none .addChain (some t6) = (.ok (), some { t6 with chain := some rules }) from rfl)]
          cases hL : faults .listChain with
          | some e =>
            rw [NftM.bind_error (show listChain (some e) (some { t6 with chain := some rules }) = (.error e, _) from rfl)]
            exact .error (hchain rules) fun h => absurd (hL.symm.trans h.list) (Option.some_ne_none e)
          | none =>
            rw [NftM.bind_ok (show listChain none (some { t6 with chain := some rules }) = (.ok rules, _) from rfl)]
            rcases addDropRule_spec faults rules .blockV4 (t := { t6 with chain := some rules }) rfl with
              ⟨rules4, hr4, hok4⟩ | ⟨e, hr4, hmem4, hf4⟩
            · rw [NftM.bind_ok hr4]
              rcases addDropRule_spec faults rules .blockV6 (t := { t6 with chain := some rules4 }) rfl with
                ⟨rules6, hr6, hok6⟩ | ⟨e, hr6, hmem6, hf6⟩
              · rw [hr6]
                refine ⟨hchain rules6, fun _ => hready, fun _ => ⟨hT, fun s => ?_, hC, hL, fun s hs => ?_⟩, fun _ => rfl⟩
                · cases s with
                  | blockV4 => exact h4
                  | blockV6 => exact h6
                · rw [← hrules'] at hs
                  cases s with
                  | blockV4 => exact hok4 hs
                  | blockV6 => exact hok6 hs
              · rw [hr6]
                exact .error (hchain rules4) fun h => hf6 (h.rules _ (hrules' ▸ hmem6))
            · rw [NftM.bind_error hr4]
              exact .error (hchain rules) fun h => hf4 (h.rules _ (hrules' ▸ hmem4))

/-! ## Hash maps -/

theorem mem_upsert {t : Table BlockEntry.id} {e x : BlockEntry} : x ∈ upsert t e ↔ (x ∈ t ∧ x.id ≠ e.id) ∨ x = e := by
  unfold upsert
  cases hins : t.insert e with
  | some t' =>
    rw [Option.getD_some, Table.mem_insert hins]
    refine or_congr_left ⟨fun hx => ⟨hx, ?_⟩, And.left⟩
    exact Table.get_eq_none.1 (Table.insert_fresh hins) x hx
  | none =>
    obtain ⟨old, hold⟩ := Option.isSome_iff_exists.1 (Table.insert_eq_none.1 hins)
    obtain ⟨hmem, hid⟩ := Table.get_eq_some.1 hold
    simp only [Option.getD_none, Table.set, Table.mem_update, decide_eq_true_eq]
    constructor
    · rintro ⟨r, hr, rfl⟩
      split_ifs with h
      · exact Or.inr rfl
      · exact Or.inl ⟨hr, h⟩
    · rintro (⟨hx, hne⟩ | rfl)
      · exact ⟨x, hx, if_neg hne⟩
      · exact ⟨old, hmem, if_pos hid⟩

theorem mem_remove {t : Table BlockEntry.id} {id : ℕ} {x : BlockEntry} : x ∈ remove t id ↔ x ∈ t ∧ x.id ≠ id := by
  rw [remove, Table.mem_delete, beq_eq_false_iff_ne]

theorem mem_foldl_upsert {entries : List BlockEntry} (hids : (entries.map BlockEntry.id).Nodup) (t : Table BlockEntry.id)
    {x : BlockEntry} : x ∈ entries.foldl upsert t ↔ (x ∈ t ∧ ∀ e ∈ entries, e.id ≠ x.id) ∨ x ∈ entries := by
  induction entries generalizing t with
  | nil => simp
  | cons e entries ih =>
    rw [List.map_cons, List.nodup_cons] at hids
    rw [List.foldl_cons, ih hids.2, mem_upsert]
    constructor
    · rintro (⟨⟨hx, hne⟩ | rfl, hall⟩ | hx)
      · refine Or.inl ⟨hx, fun e' he' => ?_⟩
        rcases List.mem_cons.1 he' with rfl | he'
        · exact hne.symm
        · exact hall e' he'
      · exact Or.inr List.mem_cons_self
      · exact Or.inr (List.mem_cons_of_mem _ hx)
    · rintro (⟨hx, hall⟩ | hx)
      · exact Or.inl ⟨Or.inl ⟨hx, (hall e List.mem_cons_self).symm⟩, fun e' he' => hall e' (List.mem_cons_of_mem _ he')⟩
      · rcases List.mem_cons.1 hx with rfl | hx
        · exact Or.inl ⟨Or.inr rfl, fun e' he' heq => hids.1 (heq ▸ List.mem_map_of_mem he')⟩
        · exact Or.inr hx

theorem mem_incoming {entries : List BlockEntry} (hids : (entries.map BlockEntry.id).Nodup) {x : BlockEntry} :
    x ∈ incoming entries ↔ x ∈ entries := by
  rw [incoming, mem_foldl_upsert hids]
  simp

theorem mem_orphans {desired : Table BlockEntry.id} {entries : List BlockEntry}
    (hids : (entries.map BlockEntry.id).Nodup) {x : BlockEntry} :
    x ∈ orphans desired entries ↔ x ∈ desired ∧ ∀ e ∈ entries, e.id ≠ x.id := by
  simp only [orphans, List.mem_filter, Option.isNone_iff_eq_none, Table.get_eq_none, mem_incoming hids, Table.mem_rows]

/-! ## The parts of a message -/

section Message

variable {T : IpText} {faults : Faults}

/-- once the agent calls its resources ready, both sets exist -/
def Agent.Sound (a : Agent) : Prop := a.nftReady = true → a.kernel.Ready

/-- the resources are there or can be set up -/
def CanStart (faults : Faults) (a : Agent) : Prop := a.nftReady = true ∨ Boots faults a.kernel

theorem ensureReady_spec (faults : Faults) {a : Agent} (h : a.Sound) :
    let p := ensureReady faults a
    (p.2.desired = a.desired ∧ p.2.externalIp = a.externalIp ∧ Extends a.kernel p.2.kernel ∧ p.2.Sound) ∧
      (p.1 = none → p.2.kernel.Ready) ∧ (p.1 = none ↔ CanStart faults a) := by
  unfold ensureReady CanStart
  by_cases hr : a.nftReady = true
  · rw [if_pos hr]
    exact ⟨⟨rfl, rfl, Extends.refl _, h⟩, fun _ => h hr, fun _ => Or.inl hr, fun _ => rfl⟩
  · rw [if_neg hr]
    obtain ⟨hext, hready, hiff⟩ := ensureResources_spec faults a.kernel
    rcases hp : ensureResources faults a.kernel with ⟨r, k⟩
    rw [hp] at hext hready hiff
    cases r with
    | ok u =>
      cases u
      exact ⟨⟨rfl, rfl, hext, fun _ => hready rfl⟩, fun _ => hready rfl, fun _ => Or.inr (hiff.1 rfl), fun _ => rfl⟩
    | error e =>
      refine ⟨⟨rfl, rfl, hext, fun hr' => absurd hr' hr⟩, fun h => (by cases h), fun h => (by cases h), fun hc => ?_⟩
      rcases hc with hc | hc
      · exact absurd hc hr
      · cases hiff.2 hc

/-- the guardrail passes the entry, and its addition does not fail -/
def Accepts (T : IpText) (faults : Faults) (ip : Option IpAddr) (e : BlockEntry) : Prop :=
  check T e.target ip = none ∧ faults (.addElement e.id) = none

/-- adding some entries one after the other -/
structure Added (T : IpText) (faults : Faults) (l : List BlockEntry) (p p' : Agent × List AckItem) : Prop where
  externalIp : p'.1.externalIp = p.1.externalIp
  nftReady : p'.1.nftReady = p.1.nftReady
  ready : p'.1.kernel.Ready
  has : ∀ slot, p'.1.kernel.has slot ↔ p.1.kernel.has slot ∨ ∃ e ∈ l, Accepts T faults p.1.externalIp e ∧ e.slot = slot
  desired : ∀ x, x ∈ p'.1.desired ↔ (x ∈ p.1.desired ∧ ∀ e ∈ l, e.id ≠ x.id) ∨ (x ∈ l ∧ Accepts T faults p.1.externalIp x)
  acks : ∀ item ∈ p'.2, item ∈ p.2 ∨
    ∃ e ∈ l, item.id = e.id ∧ item.state ≠ .absent ∧ (item.state = .present → Accepts T faults p.1.externalIp e)

theorem syncEntry_added (T : IpText) (faults : Faults) {p : Agent × List AckItem} (h : p.1.kernel.Ready) (e : BlockEntry) :
    Added T faults [e] p (syncEntry T faults p e) := by
  have hdrop : ∀ x, x ∈ remove p.1.desired e.id ↔ (x ∈ p.1.desired ∧ ∀ e' ∈ [e], e'.id ≠ x.id) := by
    intro x
    rw [mem_remove]
    simp [ne_comm]
  unfold syncEntry
  cases hc : check T e.target p.1.externalIp with
  | some reason =>
    have hrej : ¬ Accepts T faults p.1.externalIp e := fun ha => absurd ha.1 (by simp [hc])
    refine ⟨rfl, rfl, h, by simp [hrej], fun x => ?_, fun item hitem => ?_⟩
    · rw [hdrop]
      refine ⟨Or.inl, ?_⟩
      rintro (hx | ⟨hx, ha⟩)
      · exact hx
      · exact absurd (List.mem_singleton.1 hx ▸ ha) hrej
    · rcases List.mem_append.1 hitem with hitem | hitem
      · exact Or.inl hitem
      · exact Or.inr ⟨e, by simp, by simp [List.mem_singleton.1 hitem]⟩
  | none =>
    cases hf : faults (.addElement e.id) with
    | some err =>
      have hrej : ¬ Accepts T faults p.1.externalIp e := fun ha => absurd ha.2 (by simp [hf])
      simp only [addElement, hf, runNft_fault]
      refine ⟨rfl, rfl, h, by simp [hrej], fun x => ?_, fun item hitem => ?_⟩
      · rw [hdrop]
        refine ⟨Or.inl, ?_⟩
        rintro (hx | ⟨hx, ha⟩)
        · exact hx
        · exact absurd (List.mem_singleton.1 hx ▸ ha) hrej
      · rcases List.mem_append.1 hitem with hitem | hitem
        · exact Or.inl hitem
        · exact Or.inr ⟨e, by simp, by simp [List.mem_singleton.1 hitem]⟩
    | none =>
      have hacc : Accepts T faults p.1.externalIp e := ⟨hc, hf⟩
      obtain ⟨k', hk, hready, hhas⟩ := runNft_add e.set e.target h
      simp only [addElement, hf, hk]
      refine ⟨rfl, rfl, hready, fun slot => ?_, fun x => ?_, fun item hitem => ?_⟩
      · rw [hhas]
        simp [hacc, BlockEntry.slot, eq_comm]
      · rw [mem_upsert]
        constructor
        · rintro (⟨hx, hne⟩ | rfl)
          · exact Or.inl ⟨hx, by simpa using hne.symm⟩
          · exact Or.inr ⟨List.mem_cons_self, hacc⟩
        · rintro (⟨hx, hne⟩ | ⟨hx, -⟩)
          · exact Or.inl ⟨hx, (hne e List.mem_cons_self).symm⟩
          · exact Or.inr (List.mem_singleton.1 hx)
      · rcases List.mem_append.1 hitem with hitem | hitem
        · exact Or.inl hitem
        · exact Or.inr ⟨e, by simp, by simp [List.mem_singleton.1 hitem, hacc]⟩

theorem syncEntries_added {l : List BlockEntry} (hids : (l.map BlockEntry.id).Nodup) {p : Agent × List AckItem}
    (h : p.1.kernel.Ready) : Added T faults l p (l.foldl (syncEntry T faults) p) := by
  induction l generalizing p with
  | nil => exact ⟨rfl, rfl, h, by simp, by simp, fun item hitem => Or.inl hitem⟩
  | cons e l ih =>
    rw [List.map_cons, List.nodup_cons] at hids
    have h1 := syncEntry_added T faults h e
    have h2 := ih hids.2 h1.ready
    rw [List.foldl_cons]
    have hip := h1.externalIp
    refine ⟨h2.externalIp.trans hip, h2.nftReady.trans h1.nftReady, h2.ready, fun slot => ?_, fun x => ?_,
      fun item hitem => ?_⟩
    · rw [h2.has, h1.has, hip]
      simp [or_assoc]
    · rw [h2.desired, h1.desired, hip]
      simp only [List.mem_cons, List.not_mem_nil, or_false, forall_eq_or_imp, forall_eq]
      constructor
      · rintro (⟨⟨hx, hne⟩ | ⟨rfl, ha⟩, hall⟩ | ⟨hx, ha⟩)
        · exact Or.inl ⟨hx, hne, hall⟩
        · exact Or.inr ⟨Or.inl rfl, ha⟩
        · exact Or.inr ⟨Or.inr hx, ha⟩
      · rintro (⟨hx, hne, hall⟩ | ⟨rfl | hx, ha⟩)
        · exact Or.inl ⟨Or.inl ⟨hx, hne⟩, hall⟩
        · exact Or.inl ⟨Or.inr ⟨rfl, ha⟩, fun e' he' heq => hids.1 (heq ▸ List.mem_map_of_mem he')⟩
        · exact Or.inr ⟨hx, ha⟩
    · rcases h2.acks item hitem with hitem | ⟨e', he', hack⟩
      · rcases h1.acks item hitem with hitem | ⟨e', he', hack⟩
        · exact Or.inl hitem
        · exact Or.inr ⟨e', List.mem_cons.2 (Or.inl (List.mem_singleton.1 he')), hack⟩
      · exact Or.inr ⟨e', List.mem_cons_of_mem _ he', by rwa [hip] at hack⟩

/-- the deletion of an applied entry does not fail -/
def Deletes (faults : Faults) (e : BlockEntry) : Prop := faults (.deleteElement e.id) = none

/-- deleting some entries one after the other -/
structure Removed (faults : Faults) (l : List BlockEntry) (p p' : Agent × List AckItem) : Prop where
  externalIp : p'.1.externalIp = p.1.externalIp
  nftReady : p'.1.nftReady = p.1.nftReady
  ready : p.1.kernel.Ready → p'.1.kernel.Ready
  has : ∀ slot, p'.1.kernel.has slot ↔ p.1.kernel.has slot ∧ ∀ e ∈ l, Deletes faults e → e.slot ≠ slot
  desired : ∀ x, x ∈ p'.1.desired ↔ x ∈ p.1.desired ∧ ∀ e ∈ l, Deletes faults e → e.id ≠ x.id
  acks : ∀ item ∈ p'.2, item ∈ p.2 ∨
    ∃ e ∈ l, item.id = e.id ∧ item.state ≠ .present ∧ (item.state = .absent → Deletes faults e)

theorem syncOrphan_removed (faults : Faults) (p : Agent × List AckItem) (e : BlockEntry) :
    Removed faults [e] p (syncOrphan faults p e) := by
  unfold syncOrphan
  cases hf : faults (.deleteElement e.id) with
  | some err =>
    have hkeep : ¬ Deletes faults e := by simp [Deletes, hf]
    simp only [deleteElement, hf, runNft_fault]
    refine ⟨rfl, rfl, id, by simp [hkeep], by simp [hkeep], fun item hitem => ?_⟩
    rcases List.mem_append.1 hitem with hitem | hitem
    · exact Or.inl hitem
    · exact Or.inr ⟨e, by simp, by simp [List.mem_singleton.1 hitem]⟩
  | none =>
    have hdel : Deletes faults e := hf
    obtain ⟨k', hk, hready, hhas⟩ := runNft_delete e.set e.target p.1.kernel
    simp only [deleteElement, hf, hk]
    refine ⟨rfl, rfl, hready, fun slot => ?_, fun x => ?_, fun item hitem => ?_⟩
    · rw [hhas]
      simp [hdel, BlockEntry.slot, eq_comm]
    · rw [mem_remove]
      simp [hdel, ne_comm]
    · rcases List.mem_append.1 hitem with hitem | hitem
      · exact Or.inl hitem
      · exact Or.inr ⟨e, by simp, by simp [List.mem_singleton.1 hitem, hdel]⟩

theorem syncOrphans_removed (l : List BlockEntry) (p : Agent × List AckItem) :
    Removed faults l p (l.foldl (syncOrphan faults) p) := by
  induction l generalizing p with
  | nil => exact ⟨rfl, rfl, id, by simp, by simp, fun item hitem => Or.inl hitem⟩
  | cons e l ih =>
    have h1 := syncOrphan_removed faults p e
    have h2 := ih (syncOrphan faults p e)
    rw [List.foldl_cons]
    refine ⟨h2.externalIp.trans h1.externalIp, h2.nftReady.trans h1.nftReady, fun h => h2.ready (h1.ready h),
      fun slot => ?_, fun x => ?_, fun item hitem => ?_⟩
    · rw [h2.has, h1.has]
      simp [and_assoc]
    · rw [h2.desired, h1.desired]
      simp [and_assoc]
    · rcases h2.acks item hitem with hitem | ⟨e', he', hack⟩
      · rcases h1.acks item hitem with hitem | ⟨e', he', hack⟩
        · exact Or.inl hitem
        · exact Or.inr ⟨e', List.mem_cons.2 (Or.inl (List.mem_singleton.1 he')), hack⟩
      · exact Or.inr ⟨e', List.mem_cons_of_mem _ he', hack⟩

/-! ## The mirror -/

structure Mirror (a : Agent) : Prop where
  /-- every element is the target of an entry, through which it can be deleted -/
  owned : ∀ slot, a.kernel.has slot → ∃ e ∈ a.desired, e.slot = slot
  /-- every entry is in the kernel -/
  applied : ∀ e ∈ a.desired, a.kernel.has e.slot

theorem Mirror.has_iff {a : Agent} (h : Mirror a) (slot : Slot) : a.kernel.has slot ↔ ∃ e ∈ a.desired, e.slot = slot := by
  refine ⟨h.owned slot, ?_⟩
  rintro ⟨e, he, rfl⟩
  exact h.applied e he

theorem Mirror.extends {a a' : Agent} (h : Mirror a) (hd : a'.desired = a.desired) (hk : Extends a.kernel a'.kernel) :
    Mirror a' := by
  refine ⟨fun slot hs => ?_, fun e he => ?_⟩
  · rw [hd]
    exact h.owned slot ((hk.1 slot).1 hs)
  · rw [hd] at he
    exact (hk.1 _).2 (h.applied e he)

def ServerMessage.entries : ServerMessage → List BlockEntry
  | .blocklistSync entries => entries
  | .blocklistAdd entry => [entry]
  | _ => []

/-- an entry of the message that is acknowledged as present is in the kernel; one that was applied and is acknowledged as
absent is not, unless another entry has its target -/
def AcksTrue (before after : Agent) (m : ServerMessage) : AgentMessage → Prop
  | .blocklistAck results => ∀ item ∈ results,
    (item.state = .present → ∀ e ∈ m.entries, e.id = item.id → after.kernel.has e.slot) ∧
      (item.state = .absent → ∀ e ∈ before.desired, e.id = item.id → after.kernel.has e.slot →
        ∃ other ∈ after.desired, other.id ≠ item.id ∧ other.slot = e.slot)
  | .blocklistResetAck _ _ => True

/-- a target that a sync keeps: of an entry that it adds, or of one that it fails to delete -/
def Kept (T : IpText) (faults : Faults) (a : Agent) (entries : List BlockEntry) (slot : Slot) : Prop :=
  (∃ e ∈ entries, Accepts T faults a.externalIp e ∧ e.slot = slot) ∨
    ∃ o ∈ a.desired, (∀ e ∈ entries, e.id ≠ o.id) ∧ ¬ Deletes faults o ∧ o.slot = slot

/-- a target that a sync deletes -/
def Dropped (faults : Faults) (a : Agent) (entries : List BlockEntry) (slot : Slot) : Prop :=
  ∃ o ∈ a.desired, (∀ e ∈ entries, e.id ≠ o.id) ∧ Deletes faults o ∧ o.slot = slot

/-- when a message keeps the mirror -/
def Meets (T : IpText) (faults : Faults) (a : Agent) : ServerMessage → Prop
  | .blocklistReset => faults .deleteTable = none ∨ ∀ s, faults (.flushSet s) = none → ∀ e ∈ a.desired, e.set ≠ s
  | .blocklistSync entries => CanStart faults a →
    (∀ e ∈ entries, ∀ old ∈ a.desired, old.id = e.id → Kept T faults a entries old.slot ∨ Dropped faults a entries old.slot) ∧
      ∀ slot, Kept T faults a entries slot → ¬ Dropped faults a entries slot
  | .blocklistAdd entry => CanStart faults a → Accepts T faults a.externalIp entry →
    ∀ old ∈ a.desired, old.id = entry.id →
      old.slot = entry.slot ∨ ∃ other ∈ a.desired, other.id ≠ entry.id ∧ other.slot = old.slot
  | .blocklistRemove id => faults (.deleteElement id) = none →
    ∀ e ∈ a.desired, e.id = id → ∀ other ∈ a.desired, other.id ≠ id → other.slot ≠ e.slot

/-- what a message must leave: the agent's books, and its answer -/
structure Accounted (before : Agent) (m : ServerMessage) (p : AgentMessage × Agent) : Prop where
  mirror : Mirror p.2
  acks : AcksTrue before p.2 m p.1

/-- the entries after a sync, and the elements -/
theorem after_sync (T : IpText) (faults : Faults) {a : Agent} {entries : List BlockEntry} (hids : (entries.map BlockEntry.id).Nodup)
    (hready : a.kernel.Ready) (incomingOrder orphanOrder : Order) :
    let added := (incomingOrder.apply (incoming entries).rows).foldl (syncEntry T faults) (a, [])
    let p := (orphanOrder.apply (orphans a.desired entries)).foldl (syncOrphan faults) added
    (∀ x, x ∈ p.1.desired ↔ (x ∈ entries ∧ Accepts T faults a.externalIp x) ∨
        (x ∈ a.desired ∧ (∀ e ∈ entries, e.id ≠ x.id) ∧ ¬ Deletes faults x)) ∧
      (∀ slot, p.1.kernel.has slot ↔ (a.kernel.has slot ∨ ∃ e ∈ entries, Accepts T faults a.externalIp e ∧ e.slot = slot) ∧
        ¬ Dropped faults a entries slot) ∧
      p.1.kernel.Ready ∧
      ∀ item ∈ p.2, (∃ e ∈ entries, item.id = e.id ∧ item.state ≠ .absent ∧
          (item.state = .present → Accepts T faults a.externalIp e)) ∨
        ∃ o ∈ a.desired, (∀ e ∈ entries, e.id ≠ o.id) ∧ item.id = o.id ∧ item.state ≠ .present ∧
          (item.state = .absent → Deletes faults o) := by
  intro added p
  have hmem : ∀ x, x ∈ incomingOrder.apply (incoming entries).rows ↔ x ∈ entries := fun x => by
    rw [(incomingOrder.perm _).mem_iff, Table.mem_rows, mem_incoming hids]
  have horph : ∀ x, x ∈ orphanOrder.apply (orphans a.desired entries) ↔ x ∈ a.desired ∧ ∀ e ∈ entries, e.id ≠ x.id :=
    fun x => by rw [(orphanOrder.perm _).mem_iff, mem_orphans hids]
  have hnodup : ((incomingOrder.apply (incoming entries).rows).map BlockEntry.id).Nodup :=
    ((incomingOrder.perm _).map _).nodup_iff.2 (incoming entries).unique
  have hA : Added T faults _ (a, []) added := syncEntries_added hnodup hready
  have hR : Removed faults _ added p := syncOrphans_removed _ _
  refine ⟨fun x => ?_, fun slot => ?_, hR.ready hA.ready, fun item hitem => ?_⟩
  · rw [hR.desired, hA.desired]
    simp only [hmem, horph]
    constructor
    · rintro ⟨⟨hx, hne⟩ | ⟨hx, ha⟩, hdel⟩
      · exact Or.inr ⟨hx, hne, fun hd => hdel x ⟨hx, hne⟩ hd rfl⟩
      · exact Or.inl ⟨hx, ha⟩
    · rintro (⟨hx, ha⟩ | ⟨hx, hne, hkeep⟩)
      · exact ⟨Or.inr ⟨hx, ha⟩, fun o ho _ heq => ho.2 x hx heq.symm⟩
      · refine ⟨Or.inl ⟨hx, hne⟩, fun o ho hd heq => ?_⟩
        obtain rfl := Table.mem_inj ho.1 hx heq
        exact hkeep hd
  · rw [hR.has, hA.has]
    simp only [hmem, horph]
    refine and_congr_right fun _ => ⟨?_, fun hnot o ho hd heq => hnot ⟨o, ho.1, ho.2, hd, heq⟩⟩
    rintro hall ⟨o, ho, hne, hd, heq⟩
    exact hall o ⟨ho, hne⟩ hd heq
  · rcases hR.acks item hitem with hitem | ⟨o, ho, hid, hack⟩
    · rcases hA.acks item hitem with hitem | ⟨e, he, hack⟩
      · cases hitem
      · exact Or.inl ⟨e, (hmem e).1 he, hack⟩
    · obtain ⟨ho, hne⟩ := (horph o).1 ho
      exact Or.inr ⟨o, ho, hne, hid, hack⟩

/-! ## Messages -/

section Handlers

variable {a : Agent} (ha : Mirror a) (hs : a.Sound)
include ha hs

theorem handleReset_accounted :
    (handleReset faults a).2.Sound ∧
      (Accounted a .blocklistReset (handleReset faults a) ↔ Meets T faults a .blocklistReset) := by
  set k4 := (runNft (faults (.flushSet .blockV4)) (.flushSet .blockV4) a.kernel).2 with hk4
  set k6 := (runNft (faults (.flushSet .blockV6)) (.flushSet .blockV6) k4).2 with hk6
  have hflush : ∀ (s : NftSet) (k : Kernel), (∀ slot, (runNft (faults (.flushSet s)) (.flushSet s) k).2.has slot ↔
      k.has slot ∧ (faults (.flushSet s) = none → slot.1 ≠ s)) ∧
      (k.Ready → (runNft (faults (.flushSet s)) (.flushSet s) k).2.Ready) := by
    intro s k
    cases hf : faults (.flushSet s) with
    | some e => exact ⟨fun slot => by simp [runNft_fault], id⟩
    | none => simpa using runNft_flush s k
  have hhas : ∀ slot, k6.has slot ↔ a.kernel.has slot ∧ ∀ s, faults (.flushSet s) = none → slot.1 ≠ s := by
    intro slot
    rw [(hflush .blockV6 k4).1, (hflush .blockV4 a.kernel).1, and_assoc]
    refine and_congr_right fun _ => ⟨fun h s => ?_, fun h => ⟨h .blockV4, h .blockV6⟩⟩
    cases s with
    | blockV4 => exact h.1
    | blockV6 => exact h.2
  have hwipe : unconditionalWipe faults a.kernel = runNft (faults .deleteTable) .deleteTable k6 := rfl
  cases hf : faults .deleteTable with
  | none =>
    have hdel : runNft none .deleteTable k6 = (.ok (), none) := by cases k6 <;> rfl
    simp only [handleReset, hwipe, hf, hdel]
    refine ⟨fun h => (by cases h), fun _ => Or.inl hf, fun _ => ⟨⟨fun slot => ?_, fun e he => ?_⟩, trivial⟩⟩
    · rintro ⟨elements, hels, -⟩
      cases hels
    · exact absurd he (Table.not_mem_empty e)
  | some e =>
    simp only [handleReset, hwipe, hf, runNft_fault]
    refine ⟨fun h => (hflush _ _).2 ((hflush _ _).2 (hs h)), fun h => Or.inr fun s hfl x hx hset => ?_, fun h => ?_⟩
    · exact ((hhas _).1 (h.mirror.applied x hx)).2 s hfl hset
    · rcases h with h | h
      · rw [hf] at h
        cases h
      · refine ⟨⟨fun slot hslot => ha.owned slot ((hhas slot).1 hslot).1, fun x hx => ?_⟩, trivial⟩
        exact (hhas _).2 ⟨ha.applied x hx, fun s hfl => h s hfl x hx⟩

theorem handleAdd_accounted (entry : BlockEntry) :
    (handleAdd T faults a entry).2.Sound ∧
      (Accounted a (.blocklistAdd entry) (handleAdd T faults a entry) ↔ Meets T faults a (.blocklistAdd entry)) := by
  obtain ⟨⟨hd, hip, hext, hs'⟩, hready, hiff⟩ := ensureReady_spec faults hs
  rcases hp : ensureReady faults a with ⟨r, a'⟩
  rw [hp] at hd hip hext hs' hready hiff
  have hip : a'.externalIp = a.externalIp := hip
  have hfailed : ∀ reason, ¬ (CanStart faults a ∧ Accepts T faults a.externalIp entry) →
      (Accounted a (.blocklistAdd entry) (.blocklistAck [⟨entry.id, .failed, some reason⟩], a') ↔
        Meets T faults a (.blocklistAdd entry)) := by
    intro reason hno
    refine ⟨fun _ hc hacc => absurd ⟨hc, hacc⟩ hno, fun _ => ⟨ha.extends hd hext, fun item hitem => ?_⟩⟩
    rw [List.mem_singleton.1 hitem]
    exact ⟨fun h => (by cases h), fun h => (by cases h)⟩
  unfold handleAdd
  rw [hp]
  cases r with
  | some reason => exact ⟨hs', hfailed reason fun h => absurd (hiff.2 h.1) (by simp)⟩
  | none =>
    have hstart := hiff.1 rfl
    have hcheck : check T entry.target a'.externalIp = check T entry.target a.externalIp := by rw [hip]
    dsimp only
    rw [hcheck]
    cases hc : check T entry.target a.externalIp with
    | some reason =>
      exact ⟨hs', hfailed reason fun h => absurd h.2.1 (by simp [hc])⟩
    | none =>
      cases hf : faults (.addElement entry.id) with
      | some e =>
        simp only [addElement, hf, runNft_fault]
        exact ⟨hs', hfailed e.text fun h => absurd h.2.2 (by simp [hf])⟩
      | none =>
        obtain ⟨k, hk, hkready, hhas⟩ := runNft_add entry.set entry.target (hready rfl)
        have hhas : ∀ slot, k.has slot ↔ a.kernel.has slot ∨ slot = entry.slot := fun slot => by
          rw [hhas, hext.1]
          rfl
        simp only [addElement, hf, hk]
        refine ⟨fun _ => hkready, fun h _ _ old hold hid => ?_, fun h => ?_⟩
        · obtain ⟨x, hx, hslot⟩ := h.mirror.owned old.slot ((hhas _).2 (Or.inl (ha.applied old hold)))
          rcases mem_upsert.1 hx with ⟨hx, hne⟩ | rfl
          · rw [hd] at hx
            exact Or.inr ⟨x, hx, hne, hslot⟩
          · exact Or.inl hslot.symm
        · have hmirror : Mirror { a' with desired := upsert a'.desired entry, kernel := k } := by
            refine ⟨fun slot hslot => ?_, fun x hx => ?_⟩
            · rcases (hhas slot).1 hslot with hslot | rfl
              · obtain ⟨old, hold, rfl⟩ := ha.owned slot hslot
                by_cases hid : old.id = entry.id
                · rcases h hstart ⟨hc, hf⟩ old hold hid with heq | ⟨other, hother, hne, heq⟩
                  · exact ⟨entry, mem_upsert.2 (Or.inr rfl), heq.symm⟩
                  · exact ⟨other, mem_upsert.2 (Or.inl ⟨hd ▸ hother, hne⟩), heq⟩
                · exact ⟨old, mem_upsert.2 (Or.inl ⟨hd ▸ hold, hid⟩), rfl⟩
              · exact ⟨entry, mem_upsert.2 (Or.inr rfl), rfl⟩
            · rcases mem_upsert.1 hx with ⟨hx, -⟩ | rfl
              · exact (hhas _).2 (Or.inl (ha.applied x (hd ▸ hx)))
              · exact (hhas _).2 (Or.inr rfl)
          refine ⟨hmirror, fun item hitem => ?_⟩
          rw [List.mem_singleton.1 hitem]
          refine ⟨fun _ e he _ => ?_, fun h => (by cases h)⟩
          rw [List.mem_singleton.1 he]
          exact (hhas _).2 (Or.inr rfl)

theorem handleRemove_accounted (id : ℕ) :
    (handleRemove faults a id).2.Sound ∧
      (Accounted a (.blocklistRemove id) (handleRemove faults a id) ↔ Meets T faults a (.blocklistRemove id)) := by
  unfold handleRemove
  cases hget : a.desired.get id with
  | none =>
    have hnone := Table.get_eq_none.1 hget
    refine ⟨hs, fun _ _ e he hid => absurd hid (hnone e he), fun _ => ⟨ha, fun item hitem => ?_⟩⟩
    rw [List.mem_singleton.1 hitem]
    exact ⟨fun h => (by cases h), fun _ e he hid => absurd hid (hnone e he)⟩
  | some entry =>
    obtain ⟨hmem, rfl⟩ := Table.get_eq_some.1 hget
    have hunique : ∀ e ∈ a.desired, e.id = entry.id → e = entry := fun e he hid => Table.mem_inj he hmem hid
    cases hf : faults (.deleteElement entry.id) with
    | some err =>
      simp only [deleteElement, hf, runNft_fault]
      refine ⟨hs, fun _ hdel => absurd (hf.symm.trans hdel) (Option.some_ne_none err), fun _ => ⟨ha, fun item hitem => ?_⟩⟩
      rw [List.mem_singleton.1 hitem]
      exact ⟨fun h => (by cases h), fun h => (by cases h)⟩
    | none =>
      obtain ⟨k, hk, hkready, hhas⟩ := runNft_delete entry.set entry.target a.kernel
      have hhas : ∀ slot, k.has slot ↔ a.kernel.has slot ∧ slot ≠ entry.slot := hhas
      simp only [deleteElement, hf, hk]
      refine ⟨fun h => hkready (hs h), fun h _ e he hid other hother hne heq => ?_, fun h => ?_⟩
      · obtain rfl := hunique e he hid
        exact ((hhas _).1 (h.mirror.applied other (mem_remove.2 ⟨hother, hne⟩))).2 heq
      · have howned : ∀ slot, k.has slot → ∃ x ∈ remove a.desired entry.id, x.slot = slot := by
          intro slot hslot
          obtain ⟨hslot, hne⟩ := (hhas slot).1 hslot
          obtain ⟨x, hx, rfl⟩ := ha.owned slot hslot
          refine ⟨x, mem_remove.2 ⟨hx, fun hid => hne ?_⟩, rfl⟩
          rw [hunique x hx hid]
        refine ⟨⟨howned, fun x hx => ?_⟩, fun item hitem => ?_⟩
        · obtain ⟨hx, hne⟩ := mem_remove.1 hx
          exact (hhas _).2 ⟨ha.applied x hx, h hf entry hmem rfl x hx hne⟩
        · rw [List.mem_singleton.1 hitem]
          refine ⟨fun h => (by cases h), fun _ e _ _ hslot => ?_⟩
          obtain ⟨x, hx, heq⟩ := howned _ hslot
          exact ⟨x, hx, (mem_remove.1 hx).2, heq⟩

theorem handleSync_accounted {entries : List BlockEntry} (hids : (entries.map BlockEntry.id).Nodup)
    (incomingOrder orphanOrder : Order) :
    (handleSync T faults incomingOrder orphanOrder a entries).2.Sound ∧
      (Accounted a (.blocklistSync entries) (handleSync T faults incomingOrder orphanOrder a entries) ↔
        Meets T faults a (.blocklistSync entries)) := by
  obtain ⟨⟨hd, hip, hext, hs'⟩, hready, hiff⟩ := ensureReady_spec faults hs
  rcases hp : ensureReady faults a with ⟨r, a'⟩
  rw [hp] at hd hip hext hs' hready hiff
  unfold handleSync
  rw [hp]
  cases r with
  | some reason =>
    refine ⟨hs', fun _ hc => absurd (hiff.2 hc) (by simp), fun _ => ⟨ha.extends hd hext, fun item hitem => ?_⟩⟩
    obtain ⟨e, -, rfl⟩ := List.mem_map.1 hitem
    exact ⟨fun h => (by cases h), fun h => (by cases h)⟩
  | none =>
    have hstart := hiff.1 rfl
    have hd : a'.desired = a.desired := hd
    have hip : a'.externalIp = a.externalIp := hip
    have hext : ∀ slot, a'.kernel.has slot ↔ a.kernel.has slot := hext.1
    obtain ⟨hdesired, hhas, hkready, hacks⟩ :=
      after_sync T faults hids (hready rfl) incomingOrder orphanOrder
    set p := (orphanOrder.apply (orphans a'.desired entries)).foldl (syncOrphan faults)
      ((incomingOrder.apply (incoming entries).rows).foldl (syncEntry T faults) (a', [])) with hpdef
    have hdropped : ∀ slot, Dropped faults a' entries slot ↔ Dropped faults a entries slot := fun slot => by
      simp only [Dropped, hd]
    simp only [hd, hip, hext, hdropped] at hdesired hhas hacks
    have hkept : ∀ slot, (∃ x ∈ p.1.desired, x.slot = slot) ↔ Kept T faults a entries slot := by
      intro slot
      simp only [hdesired, Kept]
      constructor
      · rintro ⟨x, ⟨hx, hacc⟩ | ⟨hx, hne, hkeep⟩, heq⟩
        · exact Or.inl ⟨x, hx, hacc, heq⟩
        · exact Or.inr ⟨x, hx, hne, hkeep, heq⟩
      · rintro (⟨x, hx, hacc, heq⟩ | ⟨x, hx, hne, hkeep, heq⟩)
        · exact ⟨x, Or.inl ⟨hx, hacc⟩, heq⟩
        · exact ⟨x, Or.inr ⟨hx, hne, hkeep⟩, heq⟩
    refine ⟨fun _ => hkready, fun h _ => ⟨fun e he old hold hid => ?_, fun slot hk hdrop => ?_⟩, fun h => ?_⟩
    · -- an entry that the sync names again
      by_cases hdrop : Dropped faults a entries old.slot
      · exact Or.inr hdrop
      · exact Or.inl ((hkept _).1 (h.mirror.owned _ ((hhas _).2 ⟨Or.inl (ha.applied old hold), hdrop⟩)))
    · obtain ⟨x, hx, rfl⟩ := (hkept slot).2 hk
      exact ((hhas _).1 (h.mirror.applied x hx)).2 hdrop
    · obtain ⟨hnamed, hboth⟩ := h hstart
      have howned : ∀ slot, p.1.kernel.has slot → ∃ x ∈ p.1.desired, x.slot = slot := by
        intro slot hslot
        rw [hkept]
        obtain ⟨hbefore | ⟨e, he, hacc⟩, hdrop⟩ := (hhas slot).1 hslot
        · obtain ⟨old, hold, rfl⟩ := ha.owned slot hbefore
          by_cases horph : ∀ e ∈ entries, e.id ≠ old.id
          · exact Or.inr ⟨old, hold, horph, fun hdel => hdrop ⟨old, hold, horph, hdel, rfl⟩, rfl⟩
          · push Not at horph
            obtain ⟨e, he, hid⟩ := horph
            exact (hnamed e he old hold hid.symm).resolve_right hdrop
        · exact Or.inl ⟨e, he, hacc⟩
      have happlied : ∀ x ∈ p.1.desired, p.1.kernel.has x.slot := by
        intro x hx
        refine (hhas _).2 ⟨?_, hboth _ ((hkept _).1 ⟨x, hx, rfl⟩)⟩
        rcases (hdesired x).1 hx with ⟨hx, hacc⟩ | ⟨hx, -⟩
        · exact Or.inr ⟨x, hx, hacc, rfl⟩
        · exact Or.inl (ha.applied x hx)
      refine ⟨⟨howned, happlied⟩, fun item hitem => ?_⟩
      rcases hacks item hitem with ⟨e, he, hid, hna, hacc⟩ | ⟨o, ho, hne, hid, hnp, hdel⟩
      · refine ⟨fun hpres e' he' hid' => ?_, fun habs => absurd habs hna⟩
        obtain rfl : e' = e := List.inj_on_of_nodup_map hids he' he (hid'.trans hid)
        exact happlied e' ((hdesired e').2 (Or.inl ⟨he', hacc hpres⟩))
      · refine ⟨fun hpres => absurd hpres hnp, fun habs e _ _ hslot => ?_⟩
        obtain ⟨x, hx, heq⟩ := howned _ hslot
        refine ⟨x, hx, fun hxid => ?_, heq⟩
        rcases (hdesired x).1 hx with ⟨hx, -⟩ | ⟨hx, -, hkeep⟩
        · exact hne x hx (hxid.trans hid)
        · obtain rfl := Table.mem_inj hx ho (hxid.trans hid)
          exact hkeep (hdel habs)

end Handlers

end Message

/-! ## Runs -/

inductive AgentOp where
  /-- a message, with the faults of its calls of nft and the iteration orders of its hash maps -/
  | message (m : ServerMessage) (faults : Faults) (incomingOrder orphanOrder : Order)
  | setExternalIp (ip : Option IpAddr)

/-- the ids of a sync are unique -/
def AgentOp.UniqueIds : AgentOp → Prop
  | .message m _ _ _ => (m.entries.map BlockEntry.id).Nodup
  | .setExternalIp _ => True

section Runs

variable (T : IpText)

def agentStep (a : Agent) : AgentOp → Agent
  | .message m faults incomingOrder orphanOrder => (handle T faults incomingOrder orphanOrder a m).2
  | .setExternalIp ip => setExternalIp a ip

/-- every message of the run leaves the mirror in order and answers the truth -/
def AlwaysAccounted : Agent → List AgentOp → Prop
  | _, [] => True
  | a, .message m faults incomingOrder orphanOrder :: ops =>
    Accounted a m (handle T faults incomingOrder orphanOrder a m) ∧
      AlwaysAccounted (agentStep T a (.message m faults incomingOrder orphanOrder)) ops
  | a, .setExternalIp ip :: ops =>
    Mirror (agentStep T a (.setExternalIp ip)) ∧ AlwaysAccounted (agentStep T a (.setExternalIp ip)) ops

/-- every message of the run meets the condition in the state that it finds -/
def AlwaysMeets : Agent → List AgentOp → Prop
  | _, [] => True
  | a, .message m faults incomingOrder orphanOrder :: ops =>
    Meets T faults a m ∧ AlwaysMeets (agentStep T a (.message m faults incomingOrder orphanOrder)) ops
  | a, .setExternalIp ip :: ops => AlwaysMeets (agentStep T a (.setExternalIp ip)) ops

variable {T}

theorem handle_accounted {a : Agent} (ha : Mirror a) (hs : a.Sound) {m : ServerMessage}
    (hids : (m.entries.map BlockEntry.id).Nodup) (faults : Faults) (incomingOrder orphanOrder : Order) :
    (handle T faults incomingOrder orphanOrder a m).2.Sound ∧
      (Accounted a m (handle T faults incomingOrder orphanOrder a m) ↔ Meets T faults a m) := by
  cases m with
  | blocklistReset => exact handleReset_accounted ha hs
  | blocklistSync entries => exact handleSync_accounted ha hs hids incomingOrder orphanOrder
  | blocklistAdd entry => exact handleAdd_accounted ha hs entry
  | blocklistRemove id => exact handleRemove_accounted ha hs id

theorem always_iff {a : Agent} (ha : Mirror a) (hs : a.Sound) {ops : List AgentOp} (hids : ∀ op ∈ ops, op.UniqueIds) :
    AlwaysAccounted T a ops ↔ AlwaysMeets T a ops := by
  induction ops generalizing a with
  | nil => exact Iff.rfl
  | cons op ops ih =>
    have hrest : ∀ op ∈ ops, op.UniqueIds := fun op' hop' => hids op' (List.mem_cons_of_mem _ hop')
    cases op with
    | message m faults incomingOrder orphanOrder =>
      obtain ⟨hs', hiff⟩ := handle_accounted (T := T) ha hs (hids _ List.mem_cons_self) faults incomingOrder orphanOrder
      constructor
      · rintro ⟨hacc, h⟩
        exact ⟨hiff.1 hacc, (ih hacc.mirror hs' hrest).1 h⟩
      · rintro ⟨hmeets, h⟩
        have hacc := hiff.2 hmeets
        exact ⟨hacc, (ih hacc.mirror hs' hrest).2 h⟩
    | setExternalIp ip =>
      have ha' : Mirror (agentStep T a (.setExternalIp ip)) := ⟨ha.owned, ha.applied⟩
      have hs' : (agentStep T a (.setExternalIp ip)).Sound := hs
      exact ⟨fun h => (ih ha' hs' hrest).1 h.2, fun h => ⟨ha', (ih ha' hs' hrest).2 h⟩⟩

theorem mirror_new : Mirror Agent.new :=
  ⟨fun _ ⟨_, hels, _⟩ => (by cases hels), fun e he => absurd he (Table.not_mem_empty e)⟩

/-- **The mirror.** In a run from the empty agent every message leaves the kernel's elements and the desired entries in
agreement, and its acknowledgements true, exactly if every message meets its condition. -/
theorem mirror_run (T : IpText) {ops : List AgentOp} (hids : ∀ op ∈ ops, op.UniqueIds) :
    AlwaysAccounted T Agent.new ops ↔ AlwaysMeets T Agent.new ops :=
  always_iff mirror_new (fun h => by cases h) hids

end Runs

/-! ## An applied entry that the guardrail refuses later -/

def ownIp : IpAddr := ⟨.v4, 0x01020304, by decide⟩

/-- the texts of one address -/
def oneAddress : IpText where
  parseAddr s := if s = "1.2.3.4" then some ownIp else none
  showAddr _ := "1.2.3.4"
  parseNet s := if s = "1.2.3.4/32" then some (IpNet.single ownIp) else none
  showNet _ := "1.2.3.4/32"

def firstEntry : BlockEntry := ⟨1, "1.2.3.4/32", 4⟩

/-- without faults, and in the order of insertion -/
def quietly (m : ServerMessage) : AgentOp :=
  .message m (fun _ => none) ⟨id, fun l => List.Perm.refl l⟩ ⟨id, fun l => List.Perm.refl l⟩

/-- **An element without an entry.** The address is blocked, turns out to be the agent's own, and is synced again: the
guardrail drops the entry, and the kernel keeps the element. -/
theorem guardrail_leaves_element :
    ¬ AlwaysAccounted oneAddress Agent.new
      [quietly (.blocklistAdd firstEntry), .setExternalIp (some ownIp), quietly (.blocklistSync [firstEntry])] := by
  rintro ⟨-, -, hacc, -⟩
  set after := handle oneAddress (fun _ => none) ⟨id, fun l => List.Perm.refl l⟩ ⟨id, fun l => List.Perm.refl l⟩
    (setExternalIp (agentStep oneAddress Agent.new (quietly (.blocklistAdd firstEntry))) (some ownIp))
    (.blocklistSync [firstEntry])
  have helem : Kernel.elements after.2.kernel .blockV4 = some {"1.2.3.4/32"} := by decide +kernel
  have hdesired : after.2.desired.rows = [] := by decide +kernel
  obtain ⟨e, he, -⟩ := hacc.mirror.owned (.blockV4, "1.2.3.4/32") ⟨_, helem, Finset.mem_singleton_self _⟩
  have he : e ∈ after.2.desired.rows := he
  rw [hdesired] at he
  cases he

/-- an entry added and removed -/
theorem mirror_run_pair :
    AlwaysAccounted oneAddress Agent.new [quietly (.blocklistAdd firstEntry), quietly (.blocklistRemove 1)] ↔
      AlwaysMeets oneAddress Agent.new [quietly (.blocklistAdd firstEntry), quietly (.blocklistRemove 1)] := by
  refine mirror_run oneAddress fun op hop => ?_
  simp only [List.mem_cons, List.not_mem_nil, or_false] at hop
  rcases hop with rfl | rfl
  · show ([firstEntry].map BlockEntry.id).Nodup
    simp
  · show ([].map BlockEntry.id).Nodup
    simp

end ServerBee.Firewall
