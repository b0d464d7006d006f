import Mathlib.Tactic
import ChipScore.Word

/-!
# Facts about bytes and words

A property of bytes holds for all of them once it holds for the numbers below 256, which is a
finite check.  Words are too many for that; they are taken apart into their bytes.
-/

namespace ChipScore

/-- A property of the numbers below 256, read as bytes, holds for every byte. -/
lemma forall_byte_of_forall_lt {P : UInt8 → Prop} (h : ∀ n < 256, P (UInt8.ofNat n))
    (byte : UInt8) : P byte := by
  have hbyte := h byte.toNat byte.toNat_lt
  rwa [UInt8.ofNat_toNat] at hbyte

/-- The top bit of a byte is its sign. -/
lemma signBit_eq_msb (byte : UInt8) : (byte &&& 0x80 != 0) = byte.toBitVec.msb := by
  revert byte
  exact forall_byte_of_forall_lt (by decide +kernel)

/-- A byte with the sign bit is at least 128. -/
lemma signBit_iff (byte : UInt8) : (byte &&& 0x80 != 0) = true ↔ 128 ≤ byte.toNat := by
  rw [signBit_eq_msb, BitVec.msb_eq_decide, decide_eq_true_iff]
  rfl

/-- The value of a byte as a signed number. -/
lemma toInt_toInt8 (byte : UInt8) :
    byte.toInt8.toInt = if 128 ≤ byte.toNat then (byte.toNat : Int) - 256 else byte.toNat := by
  change byte.toBitVec.toInt = _
  rw [BitVec.toInt_eq_msb_cond, ← signBit_eq_msb]
  simp only [signBit_iff]
  rfl

/-- The bytes of a word are its digits in base 256. -/
lemma Word.toNat_ofBytes (low high : UInt8) :
    (Word.ofBytes low high).toNat = 256 * high.toNat + low.toNat := by
  have hlow := low.toNat_lt
  have hhigh := high.toNat_lt
  have hshifted : (high.toUInt16 <<< 8).toNat = high.toNat <<< 8 := by
    rw [UInt16.toNat_shiftLeft, UInt8.toNat_toUInt16]
    change high.toNat <<< 8 % 2 ^ 16 = _
    rw [Nat.shiftLeft_eq]
    omega
  rw [Word.ofBytes, UInt16.toNat_or, hshifted, UInt8.toNat_toUInt16,
    ← Nat.shiftLeft_add_eq_or_of_lt hlow, Nat.shiftLeft_eq]
  omega

@[simp] lemma Word.low_ofBytes (low high : UInt8) : Word.low (Word.ofBytes low high) = low := by
  have hlow := low.toNat_lt
  rw [← UInt8.toNat_inj, Word.low, UInt16.toNat_toUInt8, Word.toNat_ofBytes]
  omega

@[simp] lemma Word.high_ofBytes (low high : UInt8) : Word.high (Word.ofBytes low high) = high := by
  have hlow := low.toNat_lt
  have hhigh := high.toNat_lt
  have hshifted : (Word.ofBytes low high >>> 8).toNat = high.toNat := by
    rw [UInt16.toNat_shiftRight, Word.toNat_ofBytes]
    change (256 * high.toNat + low.toNat) >>> 8 = _
    rw [Nat.shiftRight_eq_div_pow]
    omega
  rw [← UInt8.toNat_inj, Word.high, UInt16.toNat_toUInt8, hshifted]
  omega

/-- A word is made of its low and its high byte. -/
lemma Word.ofBytes_low_high (w : UInt16) : Word.ofBytes (Word.low w) (Word.high w) = w := by
  have hlow : (Word.low w).toNat = w.toNat % 256 := UInt16.toNat_toUInt8 w
  have hhigh : (Word.high w).toNat = w.toNat / 256 := by
    rw [Word.high, UInt16.toNat_toUInt8, UInt16.toNat_shiftRight]
    change w.toNat >>> 8 % 256 = _
    rw [Nat.shiftRight_eq_div_pow]
    have hw := w.toNat_lt
    omega
  rw [← UInt16.toNat_inj, Word.toNat_ofBytes, hlow, hhigh]
  omega

end ChipScore
