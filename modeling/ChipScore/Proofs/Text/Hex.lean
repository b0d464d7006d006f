import Mathlib.Tactic
import ChipScore.Proofs.Word
import ChipScore.Text.Hex

/-!
# Reading hexadecimal text

Digits of a fixed width determine the number that they write, and the digits of a word are those of
its two bytes, the high one first.
-/

namespace ChipScore.Hex

/-- Different digits are written differently. -/
lemma digit_injOn {m n : Nat} (hm : m < 16) (hn : n < 16) (h : digit m = digit n) : m = n := by
  have htable : ∀ m < 16, ∀ n < 16, digit m = digit n → m = n := by decide
  exact htable m hm n hn h

/-- Numbers that fit into a width are determined by their digits. -/
lemma digits_injOn {width m n : Nat} (hm : m < 16 ^ width) (hn : n < 16 ^ width)
    (h : digits width m = digits width n) : m = n := by
  induction width generalizing m n with
  | zero => omega
  | succ width ih =>
    rw [digits, digits, List.append_singleton_inj] at h
    obtain ⟨hinit, hlast⟩ := h
    have hquotient : m / 16 = n / 16 := ih (by omega) (by omega) hinit
    have hremainder : m % 16 = n % 16 := digit_injOn (by omega) (by omega) hlast
    omega

/-- A number that fits into a width is written with as many digits. -/
lemma length_digits {width n : Nat} (h : n < 16 ^ width) : (digits width n).length = width := by
  induction width generalizing n with
  | zero =>
    obtain rfl : n = 0 := by omega
    rfl
  | succ width ih =>
    rw [digits, List.length_append, ih (by omega)]
    rfl

/-- Bytes can be read back from their digits. -/
lemma flatMap_digits_injective {bytes others : List UInt8} (hlength : bytes.length = others.length)
    (h : (bytes.flatMap fun b => digits 2 b.toNat) = others.flatMap fun b => digits 2 b.toNat) :
    bytes = others := by
  induction bytes generalizing others with
  | nil => exact (List.eq_nil_of_length_eq_zero hlength.symm).symm
  | cons b bytes ih =>
    obtain ⟨c, others, rfl⟩ := List.exists_cons_of_length_eq_add_one hlength.symm
    have hwidth : (digits 2 b.toNat).length = (digits 2 c.toNat).length := by
      rw [length_digits b.toNat_lt, length_digits c.toNat_lt]
    obtain ⟨hfirst, hrest⟩ := List.append_inj h hwidth
    have hbyte : b = c := UInt8.toNat_inj.mp (digits_injOn b.toNat_lt c.toNat_lt hfirst)
    rw [hbyte, ih (Nat.succ.inj hlength) hrest]

/-- Different words are written differently. -/
lemma word_injective {v w : UInt16} (h : word v = word w) : v = w := by
  have hdigits : digits 4 v.toNat = digits 4 w.toNat := String.ofList_injective h
  exact UInt16.toNat_inj.mp (digits_injOn v.toNat_lt w.toNat_lt hdigits)

/-- An address can be read back from its text. -/
lemma address_injective {v w : UInt16} (h : address v = address w) : v = w := by
  refine word_injective (String.ext ?_)
  simpa [address] using congrArg String.toList h

/-- The digits of a number in base 256 are those of its two parts. -/
lemma digits_add {high low : Nat} (h : low < 256) :
    digits 4 (256 * high + low) = digits 2 high ++ digits 2 low := by
  have hquotient : (256 * high + low) / 16 / 16 = high := by omega
  have hmiddle : (256 * high + low) / 16 % 16 = low / 16 % 16 := by omega
  have hlast : (256 * high + low) % 16 = low % 16 := by omega
  have hnothing : low / 16 / 16 = 0 := by omega
  rw [digits, digits, hquotient, hmiddle, hlast]
  simp [digits, hnothing]

/-- A word is written as its high byte and then its low byte. -/
lemma word_ofBytes (low high : UInt8) : word (Word.ofBytes low high) = byte high ++ byte low := by
  rw [word, byte, byte, Word.toNat_ofBytes, digits_add low.toNat_lt, String.ofList_append]

end ChipScore.Hex
