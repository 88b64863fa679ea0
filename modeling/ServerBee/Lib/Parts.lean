/-
Numbers written as parts between separators: `192.0.2.1`, `2001:db8:1:2:3:4:5:6`.

`parts size count n` are the `count` digits of `n` to the base `size`, the highest first; each is written in some base with
no leading zeros. `readParts` reads back what `showParts` writes, and nothing that has another spelling.
-/
import Mathlib.Tactic

namespace ServerBee.Lib.Parts

/-! ## One part -/

def hexValue (c : Char) : ℕ := ['0', '1', '2', '3', '4', '5', '6', '7', '8', '9', 'a', 'b', 'c', 'd', 'e', 'f'].idxOf c

def value (base : ℕ) (l : List Char) : ℕ := l.foldl (fun n c => base * n + hexValue c) 0

theorem hexValue_digitChar {d : ℕ} (hd : d < 16) : hexValue d.digitChar = d := by
  interval_cases d <;> rfl

theorem value_toDigits {base : ℕ} (hone : 1 < base) (hle : base ≤ 16) (n : ℕ) : value base (Nat.toDigits base n) = n := by
  induction n using Nat.strong_induction_on with
  | _ n ih =>
    rcases lt_or_ge n base with hlt | hge
    · rw [Nat.toDigits_of_lt_base hlt]
      show base * 0 + hexValue n.digitChar = n
      rw [hexValue_digitChar (by omega)]
      omega
    · have hmod : n % base < base := Nat.mod_lt _ (by omega)
      have hdiv : value base (Nat.toDigits base (n / base)) = n / base := ih _ (Nat.div_lt_self (by omega) hone)
      rw [Nat.toDigits_of_base_le hone hge, value, List.foldl_append]
      show base * value base (Nat.toDigits base (n / base)) + hexValue (n % base).digitChar = n
      rw [hdiv, hexValue_digitChar (by omega), Nat.div_add_mod]

/-- a number below `size` in its only spelling -/
def readPart (base size : ℕ) (l : List Char) : Option ℕ :=
  if Nat.toDigits base (value base l) = l ∧ value base l < size then some (value base l) else none

theorem readPart_toDigits {base size n : ℕ} (hone : 1 < base) (hle : base ≤ 16) (hn : n < size) :
    readPart base size (Nat.toDigits base n) = some n := by
  have hvalue := value_toDigits hone hle n
  rw [readPart, hvalue, if_pos ⟨rfl, hn⟩]

/-! ## The parts of a number -/

def parts (size : ℕ) : ℕ → ℕ → List ℕ
  | 0, _ => []
  | count + 1, n => n / size ^ count :: parts size count (n % size ^ count)

def ofParts (size : ℕ) (ps : List ℕ) : ℕ := ps.foldl (fun n p => n * size + p) 0

theorem length_parts (size count n : ℕ) : (parts size count n).length = count := by
  induction count generalizing n with
  | zero => rfl
  | succ count ih => exact congrArg Nat.succ (ih _)

theorem parts_lt {size count n : ℕ} (hsize : 0 < size) (hn : n < size ^ count) : ∀ p ∈ parts size count n, p < size := by
  induction count generalizing n with
  | zero => intro p hp; cases hp
  | succ count ih =>
    have hpos : 0 < size ^ count := Nat.pow_pos hsize
    intro p hp
    rcases List.mem_cons.1 hp with rfl | hp
    · rw [Nat.div_lt_iff_lt_mul hpos]
      rwa [pow_succ'] at hn
    · exact ih (Nat.mod_lt _ hpos) p hp

theorem foldl_parts (size count n init : ℕ) (hsize : 0 < size) (hn : n < size ^ count) :
    (parts size count n).foldl (fun n p => n * size + p) init = init * size ^ count + n := by
  induction count generalizing n init with
  | zero =>
    rw [pow_zero, Nat.lt_one_iff] at hn
    simp [parts, hn]
  | succ count ih =>
    rw [parts, List.foldl_cons, ih _ _ (Nat.mod_lt _ (Nat.pow_pos hsize))]
    have hdiv := Nat.div_add_mod n (size ^ count)
    calc (init * size + n / size ^ count) * size ^ count + n % size ^ count
        = init * (size * size ^ count) + (size ^ count * (n / size ^ count) + n % size ^ count) := by ring
      _ = init * size ^ (count + 1) + n := by rw [hdiv, pow_succ']

theorem ofParts_parts {size count n : ℕ} (hsize : 0 < size) (hn : n < size ^ count) : ofParts size (parts size count n) = n := by
  rw [ofParts, foldl_parts size count n 0 hsize hn]
  omega

/-! ## Parts as text -/

def showParts (sep : Char) (base size count n : ℕ) : List Char :=
  [sep].intercalate ((parts size count n).map (Nat.toDigits base))

def readAll (base size : ℕ) : List (List Char) → Option (List ℕ)
  | [] => some []
  | l :: ls => (readPart base size l).bind fun p => (readAll base size ls).map (p :: ·)

def readParts (sep : Char) (base size count : ℕ) (l : List Char) : Option ℕ :=
  (readAll base size (l.splitOn sep)).bind fun ps => if ps.length = count then some (ofParts size ps) else none

theorem readAll_map {base size : ℕ} (hone : 1 < base) (hle : base ≤ 16) {ps : List ℕ} (hps : ∀ p ∈ ps, p < size) :
    readAll base size (ps.map (Nat.toDigits base)) = some ps := by
  induction ps with
  | nil => rfl
  | cons p ps ih =>
    rw [List.map_cons, readAll, readPart_toDigits hone hle (hps p List.mem_cons_self),
      ih fun q hq => hps q (List.mem_cons_of_mem p hq)]
    rfl

/-- a character that no digit is -/
def Separates (sep : Char) : Prop := ∀ d < 16, d.digitChar ≠ sep

instance (sep : Char) : Decidable (Separates sep) := inferInstanceAs (Decidable (∀ d < 16, d.digitChar ≠ sep))

theorem Separates.not_mem {sep : Char} (h : Separates sep) {base : ℕ} (hone : 1 < base) (hle : base ≤ 16) (n : ℕ) :
    sep ∉ Nat.toDigits base n := by
  induction n using Nat.strong_induction_on with
  | _ n ih =>
    rcases lt_or_ge n base with hlt | hge
    · rw [Nat.toDigits_of_lt_base hlt, List.mem_singleton]
      exact fun heq => h n (by omega) heq.symm
    · have hmod : n % base < base := Nat.mod_lt _ (by omega)
      rw [Nat.toDigits_of_base_le hone hge, List.mem_append, List.mem_singleton, not_or]
      exact ⟨ih _ (Nat.div_lt_self (by omega) hone), fun heq => h _ (by omega) heq.symm⟩

theorem readParts_showParts {sep : Char} (hsep : Separates sep) {base size count n : ℕ} (hone : 1 < base) (hle : base ≤ 16)
    (hcount : 0 < count) (hsize : 0 < size) (hn : n < size ^ count) :
    readParts sep base size count (showParts sep base size count n) = some n := by
  have hne : (parts size count n).map (Nat.toDigits base) ≠ [] := fun h => by
    have hlen := length_parts size count n
    rw [List.map_eq_nil_iff.1 h] at hlen
    exact absurd hlen hcount.ne
  have hsplit : (showParts sep base size count n).splitOn sep = (parts size count n).map (Nat.toDigits base) := by
    refine List.splitOn_intercalate sep (fun l hl => ?_) hne
    obtain ⟨p, -, rfl⟩ := List.mem_map.1 hl
    exact hsep.not_mem hone hle p
  rw [readParts, hsplit, readAll_map hone hle (parts_lt hsize hn)]
  show (if (parts size count n).length = count then _ else none) = some n
  rw [if_pos (length_parts ..), ofParts_parts hsize hn]

/-- another separator is not in the text -/
theorem not_mem_showParts {sep c : Char} (hc : Separates c) (hne : c ≠ sep) {base : ℕ} (hone : 1 < base) (hle : base ≤ 16)
    (size count n : ℕ) : c ∉ showParts sep base size count n := by
  unfold showParts
  generalize parts size count n = ps
  induction ps with
  | nil => exact List.not_mem_nil
  | cons p ps ih =>
    have hp : c ∉ Nat.toDigits base p := hc.not_mem hone hle p
    cases ps with
    | nil =>
      rw [List.map_singleton, List.intercalate_singleton]
      exact hp
    | cons q qs =>
      rw [List.map_cons, List.map_cons, List.intercalate_cons_cons, List.mem_append, List.mem_append, List.mem_singleton]
      exact not_or.2 ⟨not_or.2 ⟨hp, hne⟩, ih⟩

end ServerBee.Lib.Parts
