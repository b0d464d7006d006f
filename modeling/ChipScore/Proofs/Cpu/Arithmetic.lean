import Mathlib.Tactic
import ChipScore.Cpu.Arithmetic
import ChipScore.Proofs.Word

/-!
# Binary arithmetic as integer arithmetic

The sums and differences of bytes are sums and differences of numbers, cut to eight bits: the carry
says whether the unsigned result had to be cut, the overflow whether the signed one had to.  The
processor takes neither from a wider result of its own: it subtracts by adding the one's complement,
and finds the overflow in the signs of the terms and of the sum.
-/

namespace ChipScore

/-- A byte and flags are the sum of two bytes and a carry. -/
structure Adds (a value : UInt8) (carryIn : Bool) (sum : UInt8) (f : Flags) : Prop where
  sum_eq : sum.toNat = (a.toNat + value.toNat + carryIn.toNat) % 256
  carry_iff : f.carry = true ↔ 255 < a.toNat + value.toNat + carryIn.toNat
  overflow_iff : f.overflow = true ↔
    a.toInt8.toInt + value.toInt8.toInt + carryIn.toNat ∉ Set.Icc (-128 : Int) 127
  zero_iff : f.zero = true ↔ sum = 0
  negative_iff : f.negative = true ↔ 128 ≤ sum.toNat

/-- A byte and flags are the difference of two bytes, one less unless a carry comes in. -/
structure Subtracts (a value : UInt8) (carryIn : Bool) (difference : UInt8) (f : Flags) : Prop where
  difference_eq : (difference.toNat : Int) = (a.toNat - value.toNat - (1 - carryIn.toNat)) % 256
  carry_iff : f.carry = true ↔ (0 : Int) ≤ a.toNat - value.toNat - (1 - carryIn.toNat)
  overflow_iff : f.overflow = true ↔
    a.toInt8.toInt - value.toInt8.toInt - (1 - carryIn.toNat) ∉ Set.Icc (-128 : Int) 127
  zero_iff : f.zero = true ↔ difference = 0
  negative_iff : f.negative = true ↔ 128 ≤ difference.toNat

/-- Flags compare two bytes. -/
structure Compares (register value : UInt8) (f : Flags) : Prop where
  carry_iff : f.carry = true ↔ value.toNat ≤ register.toNat
  zero_iff : f.zero = true ↔ register = value
  negative_iff : f.negative = true ↔ 128 ≤ ((register.toNat : Int) - value.toNat) % 256

namespace Flags

/-- The sum of two bytes and the carry fits into sixteen bits. -/
lemma toNat_wideSum (f : Flags) (a value : UInt8) :
    (a.toUInt16 + value.toUInt16 + (if f.carry then 1 else 0)).toNat =
      a.toNat + value.toNat + f.carry.toNat := by
  have ha := a.toNat_lt
  have hvalue := value.toNat_lt
  have hcarry := f.carry.toNat_le
  have hbit : (if f.carry then (1 : UInt16) else 0).toNat = f.carry.toNat := by
    cases f.carry <;> rfl
  rw [UInt16.toNat_add, UInt16.toNat_add, UInt8.toNat_toUInt16, UInt8.toNat_toUInt16, hbit]
  omega

/-- The overflow test compares the sign of the sum with those of the terms. -/
lemma overflowTest_iff (a value sum : UInt8) :
    ((a ^^^ sum) &&& (value ^^^ sum) &&& 0x80 != 0) = true ↔
      (128 ≤ a.toNat ↔ 128 ≤ value.toNat) ∧ (128 ≤ a.toNat ↔ ¬128 ≤ sum.toNat) := by
  rw [signBit_eq_msb, UInt8.toBitVec_and, UInt8.toBitVec_xor, UInt8.toBitVec_xor, BitVec.msb_and,
    BitVec.msb_xor, BitVec.msb_xor]
  simp only [← signBit_eq_msb, ← signBit_iff]
  cases (a &&& 0x80 != 0) <;> cases (value &&& 0x80 != 0) <;> cases (sum &&& 0x80 != 0) <;> decide

/-- Binary addition of bytes is integer addition. -/
lemma addWithCarry_adds (f : Flags) (a value : UInt8) :
    Adds a value f.carry (f.addWithCarry a value).1 (f.addWithCarry a value).2 := by
  have ha := a.toNat_lt
  have hvalue := value.toNat_lt
  have hcarry := f.carry.toNat_le
  have hwide := f.toNat_wideSum a value
  have hsum : (f.addWithCarry a value).1.toNat = (a.toNat + value.toNat + f.carry.toNat) % 256 := by
    rw [← hwide]
    exact UInt16.toNat_toUInt8 _
  constructor
  case sum_eq => exact hsum
  case carry_iff =>
    rw [← hwide]
    exact decide_eq_true_iff.trans UInt16.lt_iff_toNat_lt
  case overflow_iff =>
    -- only terms of one sign can leave the range, and then the sum shows the other sign
    refine (overflowTest_iff a value (f.addWithCarry a value).1).trans ?_
    rw [hsum, toInt_toInt8, toInt_toInt8, Set.mem_Icc]
    split_ifs <;> omega
  case zero_iff => exact beq_iff_eq
  case negative_iff => exact signBit_iff _

/-- The complement of a byte is what it lacks to 255. -/
lemma toNat_complement (value : UInt8) : (value ^^^ 0xFF).toNat = 255 - value.toNat := by
  revert value
  exact forall_byte_of_forall_lt (by decide +kernel)

/-- Adding the complement of a byte, whose signed value is one less than the negative, is integer
subtraction. -/
lemma addWithCarry_complement_subtracts (f : Flags) (a value : UInt8) :
    Subtracts a value f.carry (f.addWithCarry a (value ^^^ 0xFF)).1
      (f.addWithCarry a (value ^^^ 0xFF)).2 := by
  have ha := a.toNat_lt
  have hvalue := value.toNat_lt
  have hcarry := f.carry.toNat_le
  have hcomplement := toNat_complement value
  have hadds := f.addWithCarry_adds a (value ^^^ 0xFF)
  constructor
  case difference_eq =>
    rw [hadds.sum_eq, hcomplement]
    omega
  case carry_iff =>
    rw [hadds.carry_iff, hcomplement]
    omega
  case overflow_iff =>
    rw [hadds.overflow_iff]
    simp only [toInt_toInt8, hcomplement, Set.mem_Icc]
    split_ifs <;> omega
  case zero_iff => exact hadds.zero_iff
  case negative_iff => exact hadds.negative_iff

/-- The comparison of bytes is that of their numbers. -/
lemma compare_compares (f : Flags) (register value : UInt8) :
    Compares register value (f.compare register value) := by
  have hregister := register.toNat_lt
  have hvalue := value.toNat_lt
  constructor
  case carry_iff => exact decide_eq_true_iff.trans UInt8.le_iff_toNat_le
  case zero_iff => exact beq_iff_eq
  case negative_iff =>
    refine (signBit_iff _).trans ?_
    rw [UInt8.toNat_sub]
    omega

end Flags

/-! ### Changing a byte first -/

namespace Modification

/-- An increment wraps from the greatest byte to zero. -/
lemma toNat_result_increment (carry : Bool) (value : UInt8) :
    (result .increment carry value).toNat = (value.toNat + 1) % 256 :=
  UInt8.toNat_add value 1

/-- A decrement wraps from zero to the greatest byte. -/
lemma toNat_result_decrement (carry : Bool) (value : UInt8) :
    (result .decrement carry value).toNat = (value.toNat + 255) % 256 := by
  rw [result, UInt8.toNat_sub]
  change (2 ^ 8 - 1 + value.toNat) % 2 ^ 8 = _
  omega

/-- Rotating to the right halves a byte, and the carry comes in at the top. -/
lemma toNat_result_rotateRight (carry : Bool) (value : UInt8) :
    (result .rotateRight carry value).toNat = value.toNat / 2 + 128 * carry.toNat := by
  revert value
  cases carry <;> exact forall_byte_of_forall_lt (by decide +kernel)

/-- Rotating to the right moves the last bit out. -/
lemma carryOut_rotateRight (carry : Bool) (value : UInt8) :
    carryOut .rotateRight carry value = (value.toNat % 2 == 1) := by
  revert value
  cases carry <;> exact forall_byte_of_forall_lt (by decide +kernel)

end Modification

end ChipScore
