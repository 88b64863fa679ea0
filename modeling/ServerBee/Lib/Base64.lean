/-
Standard base64 with padding.

Three bytes are four digits of six bits; a last group of one or two bytes is padded. `decode` reads any text of that form,
whatever the bits under the padding are, and is a left inverse of `encode`.
-/
import Mathlib.Tactic

namespace ServerBee.Lib.Base64

def digit (n : ℕ) : Char :=
  if n < 26 then .ofNat (n + 65)
  else if n < 52 then .ofNat (n + 71)
  else if n < 62 then .ofNat (n - 4)
  else if n = 62 then '+'
  else '/'

def value (c : Char) : Option ℕ :=
  if 'A' ≤ c ∧ c ≤ 'Z' then some (c.toNat - 65)
  else if 'a' ≤ c ∧ c ≤ 'z' then some (c.toNat - 71)
  else if '0' ≤ c ∧ c ≤ '9' then some (c.toNat + 4)
  else if c = '+' then some 62
  else if c = '/' then some 63
  else none

theorem value_digit {n : ℕ} (h : n < 64) : value (digit n) = some n := by
  revert n
  decide +kernel

theorem digit_ne_pad {n : ℕ} (h : n < 64) : digit n ≠ '=' := by
  revert n
  decide +kernel

def encode : List UInt8 → List Char
  | [] => []
  | [a] => [digit (a.toNat / 4), digit (a.toNat % 4 * 16), '=', '=']
  | [a, b] => [digit (a.toNat / 4), digit (a.toNat % 4 * 16 + b.toNat / 16), digit (b.toNat % 16 * 4), '=']
  | a :: b :: c :: rest =>
    digit (a.toNat / 4) :: digit (a.toNat % 4 * 16 + b.toNat / 16) :: digit (b.toNat % 16 * 4 + c.toNat / 64) ::
      digit (c.toNat % 64) :: encode rest

/-- the bytes of four digits -/
def group (w x y z : ℕ) : List UInt8 := [.ofNat (w * 4 + x / 16), .ofNat (x % 16 * 16 + y / 4), .ofNat (y % 4 * 64 + z)]

def decode : List Char → Option (List UInt8)
  | [] => some []
  | w :: x :: y :: z :: rest => do
    let w ← value w
    let x ← value x
    if rest = [] ∧ z = '=' then
      if y = '=' then pure ((group w x 0 0).take 1)
      else do
        let y ← value y
        pure ((group w x y 0).take 2)
    else do
      let y ← value y
      let z ← value z
      let bytes ← decode rest
      pure (group w x y z ++ bytes)
  | _ => none

theorem length_encode (bytes : List UInt8) : (encode bytes).length = (bytes.length + 2) / 3 * 4 := by
  fun_induction encode bytes with
  | case1 => rfl
  | case2 a => simp
  | case3 a b => simp
  | case4 a b c rest ih =>
    simp only [List.length_cons, ih]
    omega

theorem digits_lt (a b c : UInt8) : a.toNat / 4 < 64 ∧ a.toNat % 4 * 16 + b.toNat / 16 < 64 ∧
    b.toNat % 16 * 4 + c.toNat / 64 < 64 ∧ c.toNat % 64 < 64 := by
  have ha := a.toNat_lt
  have hb := b.toNat_lt
  have hc := c.toNat_lt
  omega

/-- what holds of the digits and of the padding -/
theorem forall_mem_encode {P : Char → Prop} (hdigit : ∀ n < 64, P (digit n)) (hpad : P '=') (bytes : List UInt8) :
    ∀ c ∈ encode bytes, P c := by
  fun_induction encode bytes with
  | case1 => simp
  | case2 a =>
    obtain ⟨hw, hx, -⟩ := digits_lt a 0 0
    simp only [List.forall_mem_cons]
    exact ⟨hdigit _ hw, hdigit _ hx, hpad, hpad, by simp⟩
  | case3 a b =>
    obtain ⟨hw, hx, hy, -⟩ := digits_lt a b 0
    simp only [List.forall_mem_cons]
    exact ⟨hdigit _ hw, hdigit _ hx, hdigit _ hy, hpad, by simp⟩
  | case4 a b c rest ih =>
    obtain ⟨hw, hx, hy, hz⟩ := digits_lt a b c
    simp only [List.forall_mem_cons]
    exact ⟨hdigit _ hw, hdigit _ hx, hdigit _ hy, hdigit _ hz, ih⟩

/-- three bytes and back -/
theorem group_digits (a b c : UInt8) :
    group (a.toNat / 4) (a.toNat % 4 * 16 + b.toNat / 16) (b.toNat % 16 * 4 + c.toNat / 64) (c.toNat % 64) = [a, b, c] := by
  have ha := a.toNat_lt
  have hb := b.toNat_lt
  have hc := c.toNat_lt
  have hfirst : a.toNat / 4 * 4 + (a.toNat % 4 * 16 + b.toNat / 16) / 16 = a.toNat := by omega
  have hsecond : (a.toNat % 4 * 16 + b.toNat / 16) % 16 * 16 + (b.toNat % 16 * 4 + c.toNat / 64) / 4 = b.toNat := by omega
  have hthird : (b.toNat % 16 * 4 + c.toNat / 64) % 4 * 64 + c.toNat % 64 = c.toNat := by omega
  simp only [group, hfirst, hsecond, hthird, UInt8.ofNat_toNat]

theorem decode_encode (bytes : List UInt8) : decode (encode bytes) = some bytes := by
  fun_induction encode bytes with
  | case1 => rfl
  | case2 a =>
    obtain ⟨hw, hx, -⟩ := digits_lt a 0 0
    have hgroup := group_digits a 0 0
    simp only [UInt8.toNat_zero, Nat.zero_div, Nat.add_zero, Nat.zero_mod, Nat.zero_mul] at hx hgroup
    simp [decode, value_digit hw, value_digit hx, hgroup]
  | case3 a b =>
    obtain ⟨hw, hx, hy, -⟩ := digits_lt a b 0
    have hgroup := group_digits a b 0
    simp only [UInt8.toNat_zero, Nat.zero_div, Nat.add_zero, Nat.zero_mod] at hy hgroup
    simp [decode, value_digit hw, value_digit hx, value_digit hy, digit_ne_pad hy, hgroup]
  | case4 a b c rest ih =>
    obtain ⟨hw, hx, hy, hz⟩ := digits_lt a b c
    simp [decode, value_digit hw, value_digit hx, value_digit hy, value_digit hz, digit_ne_pad hz, ih, group_digits]

/-- the form of a text: groups of four digits, the last of which may be padded -/
def wellFormed : List Char → Bool
  | [] => true
  | w :: x :: y :: z :: rest =>
    (value w).isSome && (value x).isSome &&
      ((value y).isSome && (value z).isSome && wellFormed rest ||
        rest.isEmpty && z == '=' && (y == '=' || (value y).isSome))
  | _ => false

theorem wellFormed_encode (bytes : List UInt8) : wellFormed (encode bytes) = true := by
  fun_induction encode bytes with
  | case1 => rfl
  | case2 a =>
    obtain ⟨hw, hx, -⟩ := digits_lt a 0 0
    simp only [UInt8.toNat_zero, Nat.zero_div, Nat.add_zero] at hx
    simp [wellFormed, value_digit hw, value_digit hx]
  | case3 a b =>
    obtain ⟨hw, hx, hy, -⟩ := digits_lt a b 0
    simp only [UInt8.toNat_zero, Nat.zero_div, Nat.add_zero] at hy
    simp [wellFormed, value_digit hw, value_digit hx, value_digit hy]
  | case4 a b c rest ih =>
    obtain ⟨hw, hx, hy, hz⟩ := digits_lt a b c
    simp [wellFormed, value_digit hw, value_digit hx, value_digit hy, value_digit hz, ih]

end ServerBee.Lib.Base64
