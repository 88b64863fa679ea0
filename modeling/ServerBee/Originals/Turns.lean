/-
No original starves behind the others.

A scan takes 64 heads, and a head may stay undecided for as long as its payload, its rules or its snapshot fail. The cursor goes
around: the picks are the turns of the library's keyset scans over the heads of each pass, so a head that stays is picked by one
of as many passes as there are heads in them. Each pick is tried once, in the order of the picks.
-/
import ServerBee.Originals.Custody

namespace ServerBee.Originals

open ServerBee.Lib

/-- the picks that are still to be tried -/
def St.waiting (s : St) : List String := if s.admitting.isSome then s.batch.tail else s.batch

/-- what the passes of this process picked and tried -/
structure Turning (s : St) : Prop where
  picked : s.passes.map Prod.snd = Keyset.turns Original.position scanLimit none (s.passes.map Prod.fst)
  cursor : s.recoveryCursor = Keyset.after Original.position scanLimit none (s.passes.map Prod.fst)
  heads : ∀ pass ∈ s.passes, (pass.1.map Original.position).Nodup
  tried : (s.passes.flatMap fun pass => pass.2.map Original.id) = s.attempted ++ s.waiting

theorem Sound.nodup_heads {s : St} (h : Sound s) : (s.pendingHeads.map Original.position).Nodup := by
  have hids : (s.pendingHeads.map Original.id).Nodup := h.nodup_parts.2.1.sublist (List.filter_sublist.map Original.id)
  have hmap : (s.pendingHeads.map Original.position).map (fun p => (ofLex p).2) = s.pendingHeads.map Original.id := by
    rw [List.map_map]
    rfl
  rw [← hmap] at hids
  exact hids.of_map _

namespace Turning

variable {s s' : St}

/-- the steps between two scans only try picks -/
theorem keep (h : Turning s) (hp : s'.passes = s.passes) (hc : s'.recoveryCursor = s.recoveryCursor)
    (ht : s'.attempted ++ s'.waiting = s.attempted ++ s.waiting) : Turning s' := by
  refine ⟨?_, ?_, ?_, ?_⟩
  · rw [hp, h.picked]
  · rw [hp, hc, h.cursor]
  · rw [hp]
    exact h.heads
  · rw [hp, h.tried, ht]

theorem scan (h : Turning s) (hs : Sound s) (hl : s.admitting = none) (hb : s.batch = []) : Turning s.scan := by
  have hcursor := h.cursor
  refine ⟨?_, ?_, fun pass hpass => ?_, ?_⟩
  · simp only [St.scan, List.map_append, List.map_cons, List.map_nil, Keyset.turns_append, ← hcursor, h.picked, Keyset.turns]
  · simp only [St.scan, List.map_append, List.map_cons, List.map_nil, Keyset.after_append, ← hcursor, Keyset.after]
  · rcases List.mem_append.1 hpass with hpass | hpass
    · exact h.heads pass hpass
    · rw [List.mem_singleton.1 hpass]
      exact hs.nodup_heads
  · have htried := h.tried
    have hdone : s.waiting = [] := by simp [St.waiting, hl, hb]
    rw [hdone, List.append_nil] at htried
    simp [St.scan, St.waiting, hl, htried]

/-- the first pick of the batch is tried: it is done, or its admission is under way -/
theorem check (h : Turning s) (hl : s.admitting = none) {id : String} {rest : List String} (hb : s.batch = id :: rest)
    (commits maintenance : Bool) : Turning (s.check id rest commits maintenance) := by
  have hwaiting : s.waiting = id :: rest := by simp [St.waiting, hl, hb]
  have done : Turning { s with attempted := s.attempted ++ [id], batch := rest } := by
    refine h.keep rfl rfl ?_
    rw [hwaiting]
    simp [St.waiting, hl]
  unfold St.check
  cases hf : s.pending.find? (·.original.id == id) with
  | none => simpa only [hf] using done
  | some row =>
    simp only [hf]
    split
    · split
      · exact done.keep rfl rfl rfl
      · exact done
    · split
      · exact done
      · split
        · split
          · exact done.keep rfl rfl rfl
          · exact done
        · refine h.keep rfl rfl ?_
          rw [hwaiting]
          simp [St.waiting, hb]

theorem decide (h : Turning s) {id : String} (ha : s.admitting = some id) (commits : Bool) : Turning (s.decide id commits) := by
  have hwaiting : s.waiting = s.batch.tail := by simp [St.waiting, ha]
  have done : Turning { s with batch := s.batch.tail, admitting := none } := by
    refine h.keep rfl rfl ?_
    rw [hwaiting]
    rfl
  unfold St.decide
  split
  · exact done
  · split
    · exact done.keep rfl rfl rfl
    · exact done

theorem step (h : Turning s) (hs : Sound s) (op : Op) : Turning (Originals.step s op) := by
  have unlocked : ¬ s.locked = true → s.admitting = none := by
    intro hl
    simpa [St.locked] using hl
  cases op with
  | retain o =>
    simp only [Originals.step, St.retainAgentEvent]
    split
    · exact h.keep rfl rfl rfl
    · exact h
  | persist id commits maintenance =>
    simp only [Originals.step]
    split
    · exact h
    · cases s.retained.find? (·.id == id) with
      | none => exact h
      | some o =>
        simp only [Option.elim_some, St.persistOriginal]
        split
        · exact h.keep rfl rfl rfl
        · split
          · exact h.keep rfl rfl rfl
          · split
            · exact h.keep rfl rfl rfl
            · exact h.keep rfl rfl rfl
  | record o commits maintenance =>
    simp only [Originals.step, St.recordEvent]
    split
    · exact h
    · split
      · exact h.keep rfl rfl rfl
      · exact h
  | scan =>
    simp only [Originals.step]
    split
    · exact h
    · rename_i hbusy
      rw [Bool.or_eq_true, not_or] at hbusy
      exact h.scan hs (unlocked hbusy.1) (by simpa using hbusy.2)
  | check commits maintenance =>
    simp only [Originals.step]
    split
    · exact h
    · rename_i hl
      split
      · exact h
      · rename_i hb
        exact h.check (unlocked hl) hb commits maintenance
  | decide commits =>
    cases ha : s.admitting with
    | none => simpa [Originals.step, ha] using h
    | some id => simpa [Originals.step, ha] using h.decide ha commits
  | delete id =>
    simp only [Originals.step, St.deleteEvent]
    split
    · exact h
    · split
      · exact h.keep rfl rfl rfl
      · exact h.keep rfl rfl rfl
  | authorize server authority =>
    simp only [Originals.step]
    split
    · exact h
    · exact h.keep rfl rfl rfl
  | enable server capable => exact h.keep rfl rfl rfl
  | restart => exact ⟨rfl, rfl, fun pass hp => absurd hp List.not_mem_nil, rfl⟩

end Turning

theorem turning_run (authority : String → Option String) (capable : String → Bool) (ops : List Op) :
    Turning (runs step (start authority capable) ops) := by
  have main : ∀ (ops : List Op) (s : St), Sound s → Turning s → Turning (runs step s ops) := by
    intro ops
    induction ops with
    | nil => exact fun s _ h => h
    | cons op ops ih => exact fun s hs h => ih _ (hs.step op) (h.step hs op)
  exact main ops _ (sound_start authority capable) ⟨rfl, rfl, fun pass hp => absurd hp List.not_mem_nil, rfl⟩

/-- **No head starves.** Take any stretch of passes of one process that all see an original as a head, at least as many as
there are positions of heads in them: one of them picks it, however many other heads come, go or stay blocked. And the rows that
a process tries are the picks of its passes, one by one, up to those that wait in the batch under way. -/
theorem head_picked {authority : String → Option String} {capable : String → Bool} {ops : List Op}
    {old recent : List (List Original × List Original)} {o : Original} {positions : Finset Position}
    (hpasses : (runs step (start authority capable) ops).passes = old ++ recent)
    (hheads : ∀ pass ∈ recent, o ∈ pass.1 ∧ ∀ head ∈ pass.1, head.position ∈ positions)
    (ho : o.position ∈ positions) (hmany : positions.card ≤ recent.length) :
    let s := runs step (start authority capable) ops
    (∃ pass ∈ recent, o ∈ pass.2) ∧
      ∃ waiting, waiting <:+ s.batch ∧ (s.passes.flatMap fun pass => pass.2.map Original.id) = s.attempted ++ waiting := by
  intro s
  have h : Turning s := turning_run authority capable ops
  constructor
  · -- the picks of the stretch are the turns from the cursor before it
    have hpicked : recent.map Prod.snd = Keyset.turns Original.position scanLimit
        (Keyset.after Original.position scanLimit none (old.map Prod.fst)) (recent.map Prod.fst) := by
      have hall := h.picked
      rw [hpasses, List.map_append, List.map_append, Keyset.turns_append] at hall
      exact (List.append_inj hall (by simp)).2
    have htables : ∀ rows ∈ recent.map Prod.fst, (rows.map Original.position).Nodup ∧ o ∈ rows ∧
        ∀ head ∈ rows, head.position ∈ positions := by
      intro rows hrows
      obtain ⟨pass, hp, rfl⟩ := List.mem_map.1 hrows
      have hmem : pass ∈ s.passes := hpasses ▸ List.mem_append_right old hp
      exact ⟨h.heads pass hmem, hheads pass hp⟩
    have hlimit : 0 < scanLimit := by decide
    obtain ⟨got, hgot, hm⟩ := Keyset.turns_reach (Keyset.after Original.position scanLimit none (old.map Prod.fst)) hlimit
      htables (by simpa using hmany) ho
    rw [← hpicked] at hgot
    obtain ⟨pass, hp, rfl⟩ := List.mem_map.1 hgot
    exact ⟨pass, hp, hm⟩
  · refine ⟨s.waiting, ?_, h.tried⟩
    unfold St.waiting
    split
    · exact List.tail_suffix s.batch
    · exact List.suffix_refl s.batch

def brokenLogin : Original := ⟨"a", "s", "ssh_login", "10.0.0.1", 1, none⟩

def otherScan : Original := ⟨"b", "s", "port_scan", "10.0.0.2", 2, none⟩

/-- the admission of the first original fails in every pass -/
def brokenRules : List Op :=
  [.record brokenLogin true (some false), .record otherScan true (some false), .scan, .check true false, .decide false,
    .check true false, .decide false, .scan]

def twoHeads : List Original × List Original := ([brokenLogin, otherScan], [brokenLogin, otherScan])

theorem brokenRules_passes :
    (runs step (start (fun _ => none) fun _ => true) brokenRules).passes = [] ++ [twoHeads, twoHeads] := by decide

theorem otherScan_picked :
    (∃ pass ∈ [twoHeads, twoHeads], otherScan ∈ pass.2) ∧
      ∃ waiting, waiting <:+ (runs step (start (fun _ => none) fun _ => true) brokenRules).batch ∧
        ((runs step (start (fun _ => none) fun _ => true) brokenRules).passes.flatMap fun pass => pass.2.map Original.id) =
          (runs step (start (fun _ => none) fun _ => true) brokenRules).attempted ++ waiting := by
  have hheads : ∀ pass ∈ [twoHeads, twoHeads], otherScan ∈ pass.1 ∧
      ∀ head ∈ pass.1, head.position ∈ ({brokenLogin.position, otherScan.position} : Finset Position) := by
    intro pass hp
    have heq : pass = twoHeads := by simpa using hp
    subst heq
    refine ⟨by decide, fun head hh => ?_⟩
    have hcases : head = brokenLogin ∨ head = otherScan := by simpa [twoHeads] using hh
    rcases hcases with rfl | rfl <;> simp
  exact head_picked brokenRules_passes hheads (by simp) Finset.card_le_two

end ServerBee.Originals
