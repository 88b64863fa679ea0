/-
Regular expressions with captures.

`hits r s` lists the ways in which `r` matches a beginning of the text `s`, in the order in which a backtracking matcher with
greedy repetition tries them (leftmost-first); the first of them is the match. What `hits` contains is described without the
order by one lemma for each constructor, which is all that proofs need when the match is unique.
-/
import Mathlib.Tactic

namespace ServerBee.Lib

abbrev Text := List Char

/-- the characters with Unicode's property White_Space -/
def isWhiteSpace (c : Char) : Bool :=
  let n := c.toNat
  (9 ≤ n && n ≤ 13) || n == 0x20 || n == 0x85 || n == 0xA0 || n == 0x1680 || (0x2000 ≤ n && n ≤ 0x200A) || n == 0x2028 ||
    n == 0x2029 || n == 0x202F || n == 0x205F || n == 0x3000

inductive Regex where
  | lit (t : Text)
  /-- one or more characters of a class, as many as possible -/
  | plus (p : Char → Bool)
  | seq (r r' : Regex)
  | alt (r r' : Regex)
  /-- at most one match, preferably one -/
  | opt (r : Regex)
  | group (n : ℕ) (r : Regex)

namespace Regex

structure Hit where
  matched : Text
  rest : Text
  groups : List (ℕ × Text)

/-- what follows `t` at the start of a text -/
def strip : Text → Text → Option Text
  | [], s => some s
  | _ :: _, [] => none
  | c :: t, d :: s => if c = d then strip t s else none

/-- the beginnings of a text that are in a class, longest first -/
def runs (p : Char → Bool) : Text → List (Text × Text)
  | [] => []
  | c :: s => if p c then (runs p s).map (fun (a, b) => (c :: a, b)) ++ [([c], s)] else []

def hits : Regex → Text → List Hit
  | lit t, s => ((strip t s).map fun rest => ⟨t, rest, []⟩).toList
  | plus p, s => (runs p s).map fun (a, b) => ⟨a, b, []⟩
  | seq r r', s => (hits r s).flatMap fun h => (hits r' h.rest).map fun h' => ⟨h.matched ++ h'.matched, h'.rest, h.groups ++ h'.groups⟩
  | alt r r', s => hits r s ++ hits r' s
  | opt r, s => hits r s ++ [⟨[], s, []⟩]
  | group n r, s => (hits r s).map fun h => ⟨h.matched, h.rest, (n, h.matched) :: h.groups⟩

/-- the captures of an expression that is anchored at the start, by the number of the group -/
def captures (r : Regex) (s : Text) : Option (ℕ → Option Text) := (hits r s).head?.map fun h n => h.groups.lookup n

/-! ## What is matched -/

-- the equations of the matcher are made here, once for the lemmas about each expression
attribute [local simp] strip runs hits captures in
theorem strip_eq_some {t s rest : Text} : strip t s = some rest ↔ s = t ++ rest := by
  induction t generalizing s with
  | nil => simp [strip, eq_comm]
  | cons c t ih =>
    cases s with
    | nil => simp [strip]
    | cons d s =>
      simp only [strip, List.cons_append, List.cons.injEq]
      split_ifs with hcd
      · rw [ih]
        simp [hcd]
      · simp [Ne.symm hcd]

theorem mem_runs {p : Char → Bool} {s a b : Text} :
    (a, b) ∈ runs p s ↔ s = a ++ b ∧ a ≠ [] ∧ ∀ c ∈ a, p c = true := by
  induction s generalizing a with
  | nil =>
    simp only [runs, List.not_mem_nil, false_iff]
    rintro ⟨h, ha, -⟩
    exact ha (List.append_eq_nil_iff.1 h.symm).1
  | cons c s ih =>
    unfold runs
    split_ifs with hc
    · simp only [List.mem_append, List.mem_map, Prod.mk.injEq, Prod.exists, List.mem_singleton]
      constructor
      · rintro (⟨a', b', hmem, rfl, rfl⟩ | ⟨rfl, rfl⟩)
        · obtain ⟨rfl, -, hall⟩ := ih.1 hmem
          exact ⟨rfl, List.cons_ne_nil _ _, List.forall_mem_cons.2 ⟨hc, hall⟩⟩
        · exact ⟨rfl, List.cons_ne_nil _ _, by simpa using hc⟩
      · rintro ⟨h, ha, hall⟩
        obtain ⟨d, a', rfl⟩ := List.exists_cons_of_ne_nil ha
        obtain ⟨rfl, rfl⟩ := List.cons.inj h
        by_cases ha' : a' = []
        · exact Or.inr ⟨by rw [ha'], by rw [ha']; rfl⟩
        · exact Or.inl ⟨a', b, ih.2 ⟨rfl, ha', (List.forall_mem_cons.1 hall).2⟩, rfl, rfl⟩
    · simp only [List.not_mem_nil, false_iff]
      rintro ⟨h, ha, hall⟩
      obtain ⟨d, a', rfl⟩ := List.exists_cons_of_ne_nil ha
      obtain ⟨rfl, -⟩ := List.cons.inj h
      exact hc (hall c List.mem_cons_self)

variable {h : Hit} {s : Text}

theorem mem_lit {t : Text} : h ∈ hits (lit t) s ↔ s = t ++ h.rest ∧ h = ⟨t, h.rest, []⟩ := by
  simp only [hits, Option.mem_toList, Option.map_eq_some_iff, strip_eq_some]
  constructor
  · rintro ⟨rest, rfl, rfl⟩
    exact ⟨rfl, rfl⟩
  · rintro ⟨hs, hh⟩
    exact ⟨h.rest, hs, hh.symm⟩

theorem mem_plus {p : Char → Bool} :
    h ∈ hits (plus p) s ↔ s = h.matched ++ h.rest ∧ h.matched ≠ [] ∧ (∀ c ∈ h.matched, p c = true) ∧ h.groups = [] := by
  simp only [hits, List.mem_map, Prod.exists, mem_runs]
  constructor
  · rintro ⟨a, b, ⟨rfl, ha, hall⟩, rfl⟩
    exact ⟨rfl, ha, hall, rfl⟩
  · rintro ⟨hs, ha, hall, hgroups⟩
    refine ⟨h.matched, h.rest, ⟨hs, ha, hall⟩, ?_⟩
    rw [← hgroups]

theorem mem_seq {r r' : Regex} : h ∈ hits (seq r r') s ↔
    ∃ x ∈ hits r s, ∃ y ∈ hits r' x.rest, h = ⟨x.matched ++ y.matched, y.rest, x.groups ++ y.groups⟩ := by
  simp only [hits, List.mem_flatMap, List.mem_map, eq_comm]

theorem mem_alt {r r' : Regex} : h ∈ hits (alt r r') s ↔ h ∈ hits r s ∨ h ∈ hits r' s := List.mem_append

theorem mem_opt {r : Regex} : h ∈ hits (opt r) s ↔ h ∈ hits r s ∨ h = ⟨[], s, []⟩ := by
  simp only [hits, List.mem_append, List.mem_singleton]

theorem mem_group {n : ℕ} {r : Regex} :
    h ∈ hits (group n r) s ↔ ∃ x ∈ hits r s, h = ⟨x.matched, x.rest, (n, x.matched) :: x.groups⟩ := by
  simp only [hits, List.mem_map, eq_comm]

theorem captures_eq_none {r : Regex} : captures r s = none ↔ ∀ h, h ∉ hits r s := by
  simp only [captures, Option.map_eq_none_iff, List.head?_eq_none_iff, List.eq_nil_iff_forall_not_mem]

theorem captures_eq_some {r : Regex} {c : ℕ → Option Text} (hc : captures r s = some c) :
    ∃ h ∈ hits r s, c = fun n => h.groups.lookup n := by
  simp only [captures, Option.map_eq_some_iff] at hc
  obtain ⟨h, hh, rfl⟩ := hc
  exact ⟨h, List.mem_of_mem_head? hh, rfl⟩

end Regex

/-! ## Substrings -/

/-- the text from the first occurrence of `t` on -/
def findText (t : Text) : Text → Option Text
  | [] => if t = [] then some [] else none
  | c :: s => if t.isPrefixOf (c :: s) then some (c :: s) else findText t s

attribute [local simp] findText in
/-- nothing is found before a place where no occurrence begins -/
theorem findText_append {t : Text} (a s : Text) (h : ∀ b c, a = b ++ c → c ≠ [] → ¬ t <+: c ++ s) :
    findText t (a ++ s) = findText t s := by
  induction a with
  | nil => rfl
  | cons d a ih =>
    have hno : t.isPrefixOf (d :: a ++ s) = false := by
      rw [Bool.eq_false_iff, ne_eq, List.isPrefixOf_iff_prefix]
      exact h [] (d :: a) rfl (List.cons_ne_nil _ _)
    rw [List.cons_append, findText, if_neg (by rw [← List.cons_append, hno]; exact Bool.false_ne_true)]
    exact ih fun b c hbc hc => h (d :: b) c (by rw [hbc]; rfl) hc

/-- nothing is found where the first character does not occur -/
theorem findText_skip {d : Char} {t : Text} (a s : Text) (h : d ∉ a) : findText (d :: t) (a ++ s) = findText (d :: t) s := by
  apply findText_append
  rintro b c hbc hc ⟨w, hw⟩
  obtain ⟨e, c', rfl⟩ := List.exists_cons_of_ne_nil hc
  obtain ⟨rfl, -⟩ := List.cons.inj hw
  exact h (by rw [hbc]; exact List.mem_append_right _ List.mem_cons_self)

theorem findText_here {t s : Text} (ht : t ≠ []) : findText t (t ++ s) = some (t ++ s) := by
  obtain ⟨d, t', rfl⟩ := List.exists_cons_of_ne_nil ht
  rw [List.cons_append, findText, if_pos]
  rw [List.isPrefixOf_iff_prefix]
  exact ⟨s, rfl⟩

end ServerBee.Lib
