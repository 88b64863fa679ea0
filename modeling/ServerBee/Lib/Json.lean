/-
JSON values with whole numbers and the compact text of a value.

A plain text is printable ASCII without quotes and backslashes, and stands in JSON as it is. `width` counts the bytes of a
value's text when all of its texts are plain.
-/
import Mathlib.Tactic

namespace ServerBee.Lib

inductive Json where
  | null
  | bool (b : Bool)
  | num (n : ℤ)
  | str (s : List Char)
  | arr (items : List Json)
  | obj (fields : List (List Char × Json))

namespace Json

/-! ## Text -/

def decimal (n : ℕ) : List Char := if n = 0 then ['0'] else ((Nat.digits 10 n).map Nat.digitChar).reverse

def whole (n : ℤ) : List Char := if n < 0 then '-' :: decimal n.natAbs else decimal n.natAbs

def escapeChar (c : Char) : List Char :=
  if c = '"' then ['\\', '"']
  else if c = '\\' then ['\\', '\\']
  else if c = '\x08' then ['\\', 'b']
  else if c = '\x0c' then ['\\', 'f']
  else if c = '\n' then ['\\', 'n']
  else if c = '\r' then ['\\', 'r']
  else if c = '\t' then ['\\', 't']
  else if c.toNat < 32 then ['\\', 'u', '0', '0', Nat.digitChar (c.toNat / 16), Nat.digitChar (c.toNat % 16)]
  else [c]

def quote (s : List Char) : List Char := '"' :: (s.flatMap escapeChar ++ ['"'])

/-- with a comma between two parts -/
def commas : List (List Char) → List Char
  | [] => []
  | [part] => part
  | part :: parts => part ++ ',' :: commas parts

mutual

def text : Json → List Char
  | .null => "null".toList
  | .bool b => (if b then "true" else "false").toList
  | .num n => whole n
  | .str s => quote s
  | .arr items => '[' :: (commas (texts items) ++ [']'])
  | .obj fields => '\x7b' :: (commas (fieldTexts fields) ++ ['\x7d'])

def texts : List Json → List (List Char)
  | [] => []
  | item :: items => text item :: texts items

def fieldTexts : List (List Char × Json) → List (List Char)
  | [] => []
  | (key, value) :: fields => (quote key ++ ':' :: text value) :: fieldTexts fields

end

def utf8 (s : List Char) : List UInt8 := s.flatMap String.utf8EncodeChar

def bytes (j : Json) : List UInt8 := utf8 j.text

/-! ## Lookup -/

def get (key : List Char) : Json → Option Json
  | .obj fields => fields.lookup key
  | _ => none

/-- an object with these keys and no others; the keys of an object are distinct -/
def hasKeys (keys : List (List Char)) : Json → Bool
  | .obj fields => fields.length == keys.length && keys.all fun key => (fields.lookup key).isSome
  | _ => false

/-! ## Sizes -/

/-- in bytes -/
def size (s : List Char) : ℕ := (utf8 s).length

@[simp] theorem size_nil : size [] = 0 := rfl

@[simp] theorem size_cons (c : Char) (s : List Char) : size (c :: s) = c.utf8Size + size s := by
  simp [size, utf8]

@[simp] theorem size_append (s t : List Char) : size (s ++ t) = size s + size t := by
  simp [size, utf8]

theorem size_ascii {s : List Char} (h : ∀ c ∈ s, c.toNat < 128) : size s = s.length := by
  induction s with
  | nil => rfl
  | cons c s ih =>
    have hc : c.utf8Size = 1 := Char.utf8Size_eq_one_iff.2 (Nat.le_of_lt_succ (h c List.mem_cons_self))
    rw [size_cons, hc, ih fun c hc => h c (List.mem_cons_of_mem _ hc), List.length_cons, add_comm]

def isPlain (c : Char) : Bool := decide (32 ≤ c.toNat) && decide (c.toNat < 127) && c != '"' && c != '\\'

def Plain (s : List Char) : Prop := ∀ c ∈ s, isPlain c = true

instance (s : List Char) : Decidable (Plain s) := decidable_of_iff (s.all isPlain = true) List.all_eq_true

theorem escapeChar_plain {c : Char} (h : isPlain c = true) : escapeChar c = [c] := by
  simp only [isPlain, Bool.and_eq_true, decide_eq_true_eq, bne_iff_ne] at h
  obtain ⟨⟨⟨hlow, -⟩, hquote⟩, hslash⟩ := h
  have hcontrol : ∀ d : Char, d.toNat < 32 → c ≠ d := by
    rintro d hd rfl
    omega
  simp only [escapeChar, if_neg hquote, if_neg hslash, if_neg (hcontrol '\x08' (by decide)),
    if_neg (hcontrol '\x0c' (by decide)), if_neg (hcontrol '\n' (by decide)), if_neg (hcontrol '\r' (by decide)),
    if_neg (hcontrol '\t' (by decide)), if_neg (not_lt.2 hlow)]

theorem quote_plain {s : List Char} (h : Plain s) : quote s = '"' :: (s ++ ['"']) := by
  have hescaped : s.flatMap escapeChar = s := by
    induction s with
    | nil => rfl
    | cons c s ih =>
      rw [List.flatMap_cons, escapeChar_plain (h c List.mem_cons_self), ih fun c hc => h c (List.mem_cons_of_mem _ hc)]
      rfl
  rw [quote, hescaped]

theorem size_quote {s : List Char} (h : Plain s) : size (quote s) = s.length + 2 := by
  have hascii : size s = s.length := size_ascii fun c hc => by
    have := h c hc
    simp only [isPlain, Bool.and_eq_true, decide_eq_true_eq] at this
    omega
  simp only [quote_plain h, size_cons, size_append, hascii, size_nil]
  have hquote : Char.utf8Size '"' = 1 := rfl
  omega

theorem size_whole {n : ℤ} {k : ℕ} (hk : 0 < k) (hpos : 0 ≤ n) (h : n < 10 ^ k) : size (whole n) ≤ k := by
  have hascii : ∀ d < 10, (Nat.digitChar d).toNat < 128 := by decide
  rw [whole, if_neg (not_lt.2 hpos), decimal]
  split_ifs with hzero
  · exact hk
  · rw [size_ascii, List.length_reverse, List.length_map]
    · refine (Nat.digits_length_le_iff (by norm_num) _).2 ?_
      zify
      rwa [abs_of_nonneg hpos]
    · intro c hc
      obtain ⟨d, hd, rfl⟩ := List.mem_map.1 (List.mem_reverse.1 hc)
      exact hascii d (Nat.digits_lt_base (by norm_num) hd)

theorem size_commas {parts : List (List Char)} (h : parts ≠ []) :
    size (commas parts) + 1 = (parts.map fun part => size part + 1).sum := by
  fun_induction commas parts with
  | case1 => exact absurd rfl h
  | case2 part => simp
  | case3 part parts hparts ih =>
    have hcomma : Char.utf8Size ',' = 1 := rfl
    have hrest := ih fun hnil => hparts hnil
    simp only [size_append, size_cons, hcomma, List.map_cons, List.sum_cons, ← hrest]
    omega

/-- the braces and, for each field, its key, a colon, its value and a comma -/
theorem size_obj {fields : List (List Char × Json)} (h : fields ≠ []) :
    size (text (.obj fields)) = 1 + (fields.map fun field => size (quote field.1) + size (text field.2) + 2).sum := by
  have hopen : Char.utf8Size '\x7b' = 1 := rfl
  have hclose : Char.utf8Size '\x7d' = 1 := rfl
  have hcolon : Char.utf8Size ':' = 1 := rfl
  have hparts : fieldTexts fields = fields.map fun field => quote field.1 ++ ':' :: text field.2 := by
    clear h
    induction fields with
    | nil => rfl
    | cons field fields ih => simp [fieldTexts, ih]
  have hne : fieldTexts fields ≠ [] := by simpa [hparts] using h
  have hsum := size_commas hne
  rw [hparts, List.map_map] at hsum
  have hcong : (fields.map fun field => size (quote field.1) + size (text field.2) + 2) =
      fields.map ((fun part => size part + 1) ∘ fun field => quote field.1 ++ ':' :: text field.2) := by
    refine List.map_congr_left fun field _ => ?_
    simp only [Function.comp_apply, size_append, size_cons, hcolon]
    omega
  rw [hcong, ← hsum, text, hparts]
  simp only [size_cons, size_append, hopen, hclose, size_nil]

end Json

end ServerBee.Lib
