/-
Texts that both sides write and read: hexadecimal digits, identifiers and base64.
-/
import ServerBee.PushFormat.Relay
import ServerBee.PushFormat.Server

namespace ServerBee.PushFormat

open ServerBee.Lib

/-! ## Characters -/

theorem hexDigit_lower {d : ℕ} (h : d < 16) : isHex (Nat.digitChar d) = true ∧ Json.isPlain (Nat.digitChar d) = true := by
  revert d
  decide

theorem isHex_iff {c : Char} : isHex c = true ↔ 97 ≤ c.toNat ∧ c.toNat ≤ 102 ∨ 48 ≤ c.toNat ∧ c.toNat ≤ 57 := by
  simp only [isHex, Bool.or_eq_true, Bool.and_eq_true, decide_eq_true_eq, Char.le_def, UInt32.le_iff_toNat_le]
  rfl

theorem isHex_plain {c : Char} (h : isHex c = true) : Json.isPlain c = true := by
  have hrange := isHex_iff.1 h
  have hother : ∀ d : Char, d.toNat = 34 ∨ d.toNat = 92 → c ≠ d := by
    rintro d hd rfl
    omega
  simp only [Json.isPlain, Bool.and_eq_true, decide_eq_true_eq, bne_iff_ne]
  exact ⟨⟨⟨by omega, by omega⟩, hother '"' (Or.inl rfl)⟩, hother '\\' (Or.inr rfl)⟩

theorem base64_plain (bytes : List UInt8) : Json.Plain (Base64.encode bytes) :=
  Base64.forall_mem_encode (by decide +kernel) (by decide) bytes

theorem plain_jsLength {s : List Char} (h : Json.Plain s) : jsLength s = s.length := by
  induction s with
  | nil => rfl
  | cons c s ih =>
    have hc : c.toNat < 0x10000 := by
      have hplain := h c List.mem_cons_self
      simp only [Json.isPlain, Bool.and_eq_true, decide_eq_true_eq] at hplain
      omega
    have hrest := ih fun c hc => h c (List.mem_cons_of_mem _ hc)
    unfold jsLength at hrest ⊢
    rw [List.map_cons, List.sum_cons, hrest, if_pos hc, List.length_cons, add_comm]

/-! ## Hexadecimal digits -/

@[simp] theorem hexDigits_cons (b : UInt8) (bytes : List UInt8) :
    hexDigits (b :: bytes) = Nat.digitChar (b.toNat / 16) :: Nat.digitChar (b.toNat % 16) :: hexDigits bytes := rfl

@[simp] theorem length_hexDigits (bytes : List UInt8) : (hexDigits bytes).length = 2 * bytes.length := by
  induction bytes with
  | nil => rfl
  | cons b bytes ih =>
    simp only [hexDigits_cons, List.length_cons, ih]
    ring

theorem hexDigits_isHex (bytes : List UInt8) : (hexDigits bytes).all isHex = true := by
  induction bytes with
  | nil => rfl
  | cons b bytes ih =>
    have hb := b.toNat_lt
    have hhigh := (hexDigit_lower (show b.toNat / 16 < 16 by omega)).1
    have hlow := (hexDigit_lower (show b.toNat % 16 < 16 by omega)).1
    simp [hhigh, hlow, ih]

theorem hex_plain {s : List Char} (h : s.all isHex = true) : Json.Plain s :=
  fun c hc => isHex_plain (List.all_eq_true.1 h c hc)

theorem hexDigits_plain (bytes : List UInt8) : Json.Plain (hexDigits bytes) := hex_plain (hexDigits_isHex bytes)

theorem isHex64_digest (digest : Vector UInt8 32) : isHex64 (hexDigits digest.toList) = true := by
  simp [isHex64, hexRuns, hexDigits_isHex]

/-! ## Identifiers -/

/-- a run that ends in a hyphen -/
theorem hexRuns_append {bytes : List UInt8} {n : ℕ} {runs : List ℕ} {rest : List Char} (hruns : runs ≠ [])
    (hn : n = 2 * bytes.length) : hexRuns (n :: runs) (hexDigits bytes ++ '-' :: rest) = hexRuns runs rest := by
  cases runs with
  | nil => exact absurd rfl hruns
  | cons m runs =>
    have hlength : (hexDigits bytes).length = n := by rw [length_hexDigits, hn]
    have hdrop : (hexDigits bytes ++ '-' :: rest).drop (n + 1) = rest := by
      rw [← hlength, List.drop_append]
      simp
    simp only [hexRuns, hdrop, List.take_left' hlength, List.drop_left' hlength, hlength, hexDigits_isHex, beq_self_eq_true,
      List.head?_cons, Bool.true_and]

theorem isUuid_text (id : Uuid) : isUuid id.text = true := by
  have hlength : id.bytes.toList.length = 16 := id.bytes.length_toList
  unfold isUuid Uuid.text
  rw [hexRuns_append (by simp) (by simp [hlength]), hexRuns_append (by simp) (by simp [hlength]),
    hexRuns_append (by simp) (by simp [hlength]), hexRuns_append (by simp) (by simp [hlength])]
  simp [hexRuns, hexDigits_isHex, hlength]

theorem length_uuid (id : Uuid) : id.text.length = 36 := by
  have hlength : id.bytes.toList.length = 16 := id.bytes.length_toList
  simp [Uuid.text, hlength]

theorem uuid_plain (id : Uuid) : Json.Plain id.text := by
  have hhyphen : Json.isPlain '-' = true := by decide
  intro c hc
  simp only [Uuid.text, List.mem_append, List.mem_cons] at hc
  rcases hc with hc | rfl | hc | rfl | hc | rfl | hc | rfl | hc
  all_goals first | exact hhyphen | exact hexDigits_plain _ c hc

/-! ## Base64 -/

theorem canonicalBase64_encode {bytes : List UInt8} {min max : ℕ} (hmin : min ≤ bytes.length) (hmax : bytes.length ≤ max) :
    canonicalBase64 (Base64.encode bytes) min max = true := by
  have hlength : jsLength (Base64.encode bytes) ≤ (max + 2) / 3 * 4 := by
    rw [plain_jsLength (base64_plain bytes), Base64.length_encode]
    omega
  simp [canonicalBase64, hlength, Base64.wellFormed_encode, Base64.decode_encode, hmin, hmax]

end ServerBee.PushFormat
