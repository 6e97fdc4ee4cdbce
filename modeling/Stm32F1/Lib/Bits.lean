import Mathlib

/-!
# Bits and bytes

Setting and clearing bits of a byte, and what other bits see of it; words made of
two bytes.
-/

namespace Stm32F1

theorem or_and_distrib (f b c : UInt8) : (f ||| b) &&& c = (f &&& c) ||| (b &&& c) :=
  UInt8.toBitVec_inj.1 BitVec.and_or_distrib_right

theorem or_and_of_disjoint {b c : UInt8} (h : b &&& c = 0) (f : UInt8) :
    (f ||| b) &&& c = f &&& c := by
  rw [or_and_distrib, h, UInt8.or_zero]

theorem or_and_self (f b : UInt8) : (f ||| b) &&& b = b := by
  rw [← UInt8.toBitVec_inj]
  ext i hi
  simp only [UInt8.toBitVec_and, UInt8.toBitVec_or, BitVec.getElem_and, BitVec.getElem_or,
    Bool.and_eq_right_iff_imp, Bool.or_eq_true]
  exact Or.inr

theorem andNot_and_self (f b : UInt8) : (f &&& ~~~b) &&& b = 0 := by
  rw [UInt8.and_assoc, UInt8.not_and_self, UInt8.and_zero]

theorem andNot_and_of_disjoint {b c : UInt8} (h : ~~~b &&& c = c) (f : UInt8) :
    (f &&& ~~~b) &&& c = f &&& c := by
  rw [UInt8.and_assoc, h]

/-! ## Two bytes -/

theorem or_shiftLeft_byte {lo : Nat} (h : lo < 256) (hi : Nat) :
    lo ||| hi <<< 8 = lo + 256 * hi := by
  rw [Nat.or_comm, ← Nat.shiftLeft_add_eq_or_of_lt h, Nat.shiftLeft_eq]
  omega

theorem toNat_word16 (lo hi : UInt8) :
    (lo.toUInt16 ||| hi.toUInt16 <<< 8).toNat = lo.toNat + 256 * hi.toNat := by
  have hhi := hi.toNat_lt
  have hshift : (hi.toUInt16 <<< 8).toNat = hi.toNat <<< 8 := by
    rw [UInt16.toNat_shiftLeft, UInt8.toNat_toUInt16, Nat.shiftLeft_eq, Nat.shiftLeft_eq]
    exact Nat.mod_eq_of_lt (by change hi.toNat * 256 < 65536; omega)
  rw [UInt16.toNat_or, hshift, UInt8.toNat_toUInt16, or_shiftLeft_byte lo.toNat_lt]

theorem toNat_word32 (lo hi : UInt8) :
    (lo.toUInt32 ||| hi.toUInt32 <<< 8).toNat = lo.toNat + 256 * hi.toNat := by
  have hhi := hi.toNat_lt
  have hshift : (hi.toUInt32 <<< 8).toNat = hi.toNat <<< 8 := by
    rw [UInt32.toNat_shiftLeft, UInt8.toNat_toUInt32, Nat.shiftLeft_eq, Nat.shiftLeft_eq]
    exact Nat.mod_eq_of_lt (by change hi.toNat * 256 < 4294967296; omega)
  rw [UInt32.toNat_or, hshift, UInt8.toNat_toUInt32, or_shiftLeft_byte lo.toNat_lt]

/-- A word is made of its bytes. -/
theorem join_bytes (v : UInt16) : v.toUInt8.toUInt16 ||| (v >>> 8).toUInt8.toUInt16 <<< 8 = v := by
  have hv := v.toNat_lt
  have hhi : (v >>> 8).toNat = v.toNat / 256 := by
    rw [UInt16.toNat_shiftRight]
    exact Nat.shiftRight_eq_div_pow _ _
  rw [← UInt16.toNat_inj, toNat_word16, UInt16.toNat_toUInt8, UInt16.toNat_toUInt8, hhi]
  omega

/-! ## Registers -/

/-- The number that `n` bytes spell, the most significant first. -/
def bigEndian (b : Nat → UInt8) : Nat → Nat
  | 0 => 0
  | n + 1 => bigEndian b n * 256 + (b n).toNat

/-- The bits `hi` to `lo` of a number. -/
def bitField (v hi lo : Nat) : Nat := v / 2 ^ lo % 2 ^ (hi + 1 - lo)

/-- The first bytes are what is left when the others are shifted out. -/
theorem bigEndian_shift (b : Nat → UInt8) (n k : Nat) :
    bigEndian b (n + k) / 256 ^ k = bigEndian b n := by
  induction k with
  | zero => exact Nat.div_one _
  | succ k ih =>
      have hlast : bigEndian b (n + (k + 1)) / 256 = bigEndian b (n + k) := by
        have hb := (b (n + k)).toNat_lt
        change (bigEndian b (n + k) * 256 + (b (n + k)).toNat) / 256 = bigEndian b (n + k)
        omega
      rw [Nat.pow_succ', ← Nat.div_div_eq_div_mul, hlast, ih]

end Stm32F1
