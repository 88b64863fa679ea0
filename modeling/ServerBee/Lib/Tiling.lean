/-
Tilings of the integers.

Boundaries `b` that strictly increase over all integers cut the integers into tiles: the tile of number `i` begins at `b i`
and ends before `b (i + 1)`. Every integer lies in exactly one tile.
-/
import Mathlib.Tactic

namespace ServerBee.Lib.Tiling

variable {b : ℤ → ℤ}

/-- `n` lies in the tile of number `i` -/
def InTile (b : ℤ → ℤ) (i n : ℤ) : Prop := b i ≤ n ∧ n < b (i + 1)

theorem InTile.lt_of_lt (hb : StrictMono b) {i j m n : ℤ} (hm : InTile b i m) (hn : InTile b j n) (hij : i < j) : m < n :=
  calc m < b (i + 1) := hm.2
    _ ≤ b j := hb.monotone (by omega)
    _ ≤ n := hn.1

theorem InTile.unique (hb : StrictMono b) {i j n : ℤ} (hi : InTile b i n) (hj : InTile b j n) : i = j := by
  rcases lt_trichotomy i j with hlt | heq | hlt
  · exact absurd (hi.lt_of_lt hb hj hlt) (lt_irrefl n)
  · exact heq
  · exact absurd (hj.lt_of_lt hb hi hlt) (lt_irrefl n)

/-- boundaries pass every integer in both directions -/
theorem boundary_le (hb : StrictMono b) (k : ℕ) : b (-k) ≤ b 0 - k ∧ b 0 + k ≤ b k := by
  induction k with
  | zero => simp
  | succ k ih =>
    have hdown : b (-((k : ℤ) + 1)) < b (-k) := hb (by omega)
    have hup : b k < b ((k : ℤ) + 1) := hb (by omega)
    push_cast
    omega

theorem exists_tile (hb : StrictMono b) (n : ℤ) : ∃ i, InTile b i n := by
  have hlow : b (-((b 0 - n).toNat : ℤ)) ≤ n := by
    have := (boundary_le hb (b 0 - n).toNat).1
    by_cases h : b 0 ≤ n
    · have hzero : (b 0 - n).toNat = 0 := by omega
      rw [hzero]
      simpa using h
    · omega
  have hbound : ∀ i, b i ≤ n → i ≤ ((n - b 0).toNat : ℤ) := by
    intro i hi
    by_contra hlt
    have hbeyond := hb (show ((n - b 0).toNat : ℤ) < i by omega)
    have := (boundary_le hb (n - b 0).toNat).2
    omega
  obtain ⟨i, hi, hgreatest⟩ := Int.exists_greatest_of_bdd ⟨_, hbound⟩ ⟨_, hlow⟩
  refine ⟨i, hi, ?_⟩
  by_contra hle
  have := hgreatest (i + 1) (by omega)
  omega

end ServerBee.Lib.Tiling
