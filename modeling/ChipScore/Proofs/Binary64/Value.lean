import Mathlib.Algebra.Order.Floor.Div
import Mathlib.Algebra.Order.Floor.Semifield
import Mathlib.Tactic
import ChipScore.Proofs.Binary64.Order

/-!
# Values and errors

A finite number has a `value`, which is rational.  An operation on finite numbers rounds the exact
result once, and for a result below `2 ^ k` this adds an error of `roundoff k` at most
(`near_round`).

A number is `Near` a rational when it is finite and no more than a given error off.  For each
operation there is a lemma that tells how near its result is, given how near its arguments are; a
computation of several steps is followed by applying them one after the other, and the errors add
up.
-/

namespace ChipScore.Binary64

/-! ### Values -/

/-- A sign bit as a factor. -/
def signOf (negative : Bool) : ℚ :=
  if negative then -1 else 1

/-- The value of a finite number. -/
def value (x : Binary64) : ℚ :=
  signOf x.negative * (x.units / unitsPerOne)

variable {x y z : Binary64} {p q r v d e f g : ℚ} {k : Nat}

@[simp]
lemma abs_signOf (negative : Bool) : |signOf negative| = 1 := by
  cases negative <;> simp [signOf]

/-- The sign of a product is that of both factors together. -/
lemma signOf_bne (a b : Bool) : signOf (a != b) = signOf a * signOf b := by
  cases a <;> cases b <;> simp [signOf]

lemma unitsPerOne_pos : (0 : ℚ) < unitsPerOne := by
  have : 0 < unitsPerOne := by decide
  exact_mod_cast this

/-- The number of units in one is a power of two.  The exponent is kept behind an equation, for the
power is not to be computed. -/
lemma exists_unitsPerOne_eq : ∃ m, m = 1021 ∧ unitsPerOne = 2 ^ (m + 53) := by
  refine ⟨1021, rfl, ?_⟩
  rw [← Nat.one_shiftLeft]
  rfl

/-- The magnitude of a value is that of its units. -/
lemma abs_value (x : Binary64) : |x.value| = x.units / unitsPerOne := by
  rw [value, abs_mul, abs_signOf, one_mul]
  exact abs_of_nonneg (by positivity)

/-- The value is that of the units with their sign. -/
lemma value_eq_signedUnits (x : Binary64) : x.value = x.signedUnits / unitsPerOne := by
  rw [value, signedUnits]
  cases x.negative <;> simp [signOf, neg_div]

/-- A number with the other sign has the value of the other sign. -/
lemma value_neg (x : Binary64) : x.neg.value = -x.value := by
  rw [value_eq_signedUnits, value_eq_signedUnits, signedUnits_neg, Int.cast_neg, neg_div]

/-! ### One rounding -/

/-- How far a result below `2 ^ k` can be off. -/
def roundoff (k : Nat) : ℚ :=
  2 ^ k / 2 ^ 54

/-- A finite number that is near a rational. -/
structure Near (x : Binary64) (q e : ℚ) : Prop where
  /-- The number is finite. -/
  finite : x.isFinite = true
  /-- It is off by so much at most. -/
  abs_sub_le : |x.value - q| ≤ e

/-- A finite number is its value, without an error. -/
lemma near_self (h : x.isFinite = true) : x.Near x.value 0 :=
  ⟨h, by rw [sub_self, abs_zero]⟩

/-- What is near is also near with a greater error. -/
lemma Near.mono (h : x.Near q e) (hle : e ≤ f) : x.Near q f :=
  ⟨h.finite, h.abs_sub_le.trans hle⟩

/-- What is rounded to a finite rank has that rank. -/
lemma round_of_lt (negative : Bool) {num den : Nat} (h : nearestRank num den < infinityRank) :
    (round negative num den).isFinite = true ∧
      (round negative num den).rank = nearestRank num den := by
  have hrank : (round negative num den).rank = nearestRank num den := min_eq_left h.le
  refine ⟨?_, hrank⟩
  rw [isFinite, hrank]
  exact decide_eq_true h

/-- A finite number that a quotient is rounded to has the units of the nearest magnitude. -/
lemma units_round {negative : Bool} {num den : Nat}
    (h : (round negative num den).isFinite = true) :
    (round negative num den).units = unitsAt (nearestRank num den) := by
  have hrank : Min.min (nearestRank num den) infinityRank < infinityRank := of_decide_eq_true h
  rw [units, round, ofRank]
  change unitsAt (Min.min _ _) = _
  rw [min_eq_left (by omega)]

/-- The magnitude nearest a quotient is near it. -/
lemma abs_unitsAt_sub_le {num den m : Nat} (hden : 0 < den) (hm : exponent num den ≤ m) :
    |(unitsAt (nearestRank num den) : ℚ) - num / den| ≤ 2 ^ m / 2 := by
  have hpos : (0 : ℚ) < den := by exact_mod_cast hden
  have hstep : (den * 2 ^ exponent num den : ℚ) ≤ den * 2 ^ m := by
    gcongr
    exact one_le_two
  have hquotient : (num : ℚ) / den * den = num := div_mul_cancel₀ _ hpos.ne'
  obtain ⟨hbelow, habove⟩ := nearestRank_near num hden
  have hbelow : (2 * num : ℚ) ≤
      2 * (unitsAt (nearestRank num den) * den) + den * 2 ^ exponent num den := by
    exact_mod_cast hbelow
  have habove : (2 * (unitsAt (nearestRank num den) * den) : ℚ) ≤
      2 * num + den * 2 ^ exponent num den := by
    exact_mod_cast habove
  rw [abs_le]
  constructor <;> refine le_of_mul_le_mul_right ?_ hpos <;> linarith

/-- A quotient of units is rounded to a number that is near it. -/
lemma near_round (negative : Bool) {num den : Nat} (hden : 0 < den) (hk : k ≤ 1000)
    (h : num / den < 2 ^ k * (unitsPerOne : ℚ)) :
    (round negative num den).Near (signOf negative * (num / den / unitsPerOne)) (roundoff k) := by
  obtain ⟨m, hm, hone⟩ := exists_unitsPerOne_eq
  have hbound : num < 2 ^ (k + (m + 53)) * den := by
    have hpos : (0 : ℚ) < den := by exact_mod_cast hden
    rw [div_lt_iff₀ hpos] at h
    rw [pow_add, ← hone]
    exact_mod_cast h
  have hexponent : exponent num den ≤ k + m := (exponent_le hbound).trans (by omega)
  obtain ⟨hfinite, hrank⟩ :=
    round_of_lt negative (nearestRank_lt_infinityRank hden (by omega) hbound)
  refine ⟨hfinite, ?_⟩
  rw [value, units, hrank]
  change |signOf negative * _ - _| ≤ _
  rw [← mul_sub, abs_mul, abs_signOf, one_mul, ← sub_div, abs_div, abs_of_pos unitsPerOne_pos,
    div_le_iff₀ unitsPerOne_pos]
  calc |(unitsAt (nearestRank num den) : ℚ) - num / den|
      ≤ 2 ^ (k + m) / 2 := abs_unitsAt_sub_le hden hexponent
    _ = roundoff k * unitsPerOne := by
        rw [roundoff, hone]
        push_cast
        ring

/-- A result is off by what its arguments contribute, and by one rounding. -/
lemma near_of_rounded (hexact : |v - r| ≤ d) (h : |r| + d < 2 ^ k)
    (hrounded : |v| < 2 ^ k → z.Near v (roundoff k)) : z.Near r (d + roundoff k) := by
  have hbound : |v| < 2 ^ k := by
    calc |v| = |r + (v - r)| := by ring_nf
      _ ≤ |r| + |v - r| := abs_add_le _ _
      _ ≤ |r| + d := add_le_add_right hexact _
      _ < 2 ^ k := h
  obtain ⟨hfinite, hnear⟩ := hrounded hbound
  refine ⟨hfinite, ?_⟩
  calc |z.value - r| = |(v - r) + (z.value - v)| := by ring_nf
    _ ≤ |v - r| + |z.value - v| := abs_add_le _ _
    _ ≤ d + roundoff k := add_le_add hexact hnear

/-! ### Sums and differences -/

lemma roundoff_nonneg (k : Nat) : 0 ≤ roundoff k := by
  rw [roundoff]
  positivity

/-- A zero is finite and has no value. -/
lemma near_signedZero (negative : Bool) : (signedZero negative).Near 0 0 := by
  refine ⟨by cases negative <;> decide, ?_⟩
  rw [value, signedZero, ofRank, units]
  simp [unitsAt, binade]

/-- A whole number of units is rounded to a number that is near it. -/
lemma near_round_units (n : Int) (hk : k ≤ 1000) (h : |(n / unitsPerOne : ℚ)| < 2 ^ k) :
    (round (n < 0) n.natAbs 1).Near (n / unitsPerOne) (roundoff k) := by
  have habs : (n.natAbs : ℚ) = |(n : ℚ)| := by
    rw [Nat.cast_natAbs, Int.cast_abs]
  have hsign : signOf (n < 0) * (n.natAbs : ℚ) = n := by
    rw [habs, signOf]
    split_ifs with hneg
    · have : (n : ℚ) < 0 := by exact_mod_cast of_decide_eq_true hneg
      rw [abs_of_neg this]
      ring
    · have : (0 : ℚ) ≤ n := by
        exact_mod_cast not_lt.mp (of_decide_eq_false (Bool.eq_false_of_not_eq_true hneg))
      rw [abs_of_nonneg this, one_mul]
  have hbound : (n.natAbs : ℚ) / (1 : Nat) < 2 ^ k * unitsPerOne := by
    rw [abs_div, abs_of_pos unitsPerOne_pos, div_lt_iff₀ unitsPerOne_pos] at h
    rwa [habs, Nat.cast_one, div_one]
  have hnear := near_round (decide (n < 0)) one_pos hk hbound
  rwa [Nat.cast_one, div_one, ← mul_div_assoc, hsign] at hnear

/-- A sum is rounded once. -/
lemma near_add (hx : x.isFinite = true) (hy : y.isFinite = true) (hk : k ≤ 1000)
    (h : |x.value + y.value| < 2 ^ k) : (x + y).Near (x.value + y.value) (roundoff k) := by
  have hunits : x.value + y.value = (x.signedUnits + y.signedUnits : Int) / unitsPerOne := by
    rw [value_eq_signedUnits, value_eq_signedUnits, Int.cast_add, add_div]
  rw [hunits] at h ⊢
  rw [add_of_isFinite hx hy, addFinite]
  split_ifs with hzero
  · rw [hzero, Int.cast_zero, zero_div]
    exact (near_signedZero _).mono (roundoff_nonneg k)
  · exact near_round_units _ hk h

/-- **The error of a sum**: those of the terms, and that of one rounding. -/
lemma Near.add (hx : x.Near p e) (hy : y.Near q f) (hr : p + q = r) (hk : k ≤ 1000)
    (h : |r| + (e + f) < 2 ^ k) (hg : e + f + roundoff k ≤ g) : (x + y).Near r g := by
  have hexact : |x.value + y.value - r| ≤ e + f := by
    calc |x.value + y.value - r| = |(x.value - p) + (y.value - q)| := by rw [← hr]; ring_nf
      _ ≤ |x.value - p| + |y.value - q| := abs_add_le _ _
      _ ≤ e + f := add_le_add hx.abs_sub_le hy.abs_sub_le
  exact (near_of_rounded hexact h (near_add hx.finite hy.finite hk)).mono hg

/-- **The error of a difference.** -/
lemma Near.sub (hx : x.Near p e) (hy : y.Near q f) (hr : p - q = r) (hk : k ≤ 1000)
    (h : |r| + (e + f) < 2 ^ k) (hg : e + f + roundoff k ≤ g) : (x - y).Near r g := by
  have hneg : y.neg.Near (-q) f := by
    refine ⟨hy.finite, ?_⟩
    rw [value_neg, ← neg_add', abs_neg, ← sub_eq_add_neg]
    exact hy.abs_sub_le
  rw [sub_eq_add_neg] at hr
  exact hx.add hneg hr hk h hg

/-! ### Products and quotients -/

/-- The product of finite numbers is that of their units, rounded once. -/
lemma mul_of_isFinite (hx : x.isFinite = true) (hy : y.isFinite = true) :
    x * y = round (x.negative != y.negative) (x.units * y.units) unitsPerOne := by
  change mul x y = _
  rw [mul, isNaN_of_isFinite hx, isNaN_of_isFinite hy, isInfinite_of_isFinite hx,
    isInfinite_of_isFinite hy]
  rfl

/-- The product of finite numbers does not depend on their order. -/
lemma mul_comm_of_isFinite (hx : x.isFinite = true) (hy : y.isFinite = true) : x * y = y * x := by
  rw [mul_of_isFinite hx hy, mul_of_isFinite hy hx, bne_comm, Nat.mul_comm]

/-- A product is rounded once. -/
lemma near_mul (hx : x.isFinite = true) (hy : y.isFinite = true) (hk : k ≤ 1000)
    (h : |x.value * y.value| < 2 ^ k) : (x * y).Near (x.value * y.value) (roundoff k) := by
  have hvalue : x.value * y.value = signOf (x.negative != y.negative) *
      ((x.units * y.units : Nat) / (unitsPerOne : Nat) / unitsPerOne) := by
    rw [value, value, signOf_bne]
    push_cast
    ring
  rw [abs_mul, abs_value, abs_value, div_mul_div_comm, ← div_div,
    div_lt_iff₀ unitsPerOne_pos] at h
  rw [mul_of_isFinite hx hy, hvalue]
  exact near_round _ (by decide) hk (by exact_mod_cast h)

/-- **The error of a product** with a number that is known exactly. -/
lemma Near.mul_left (hx : x.isFinite = true) (hy : y.Near q e) (hr : x.value * q = r)
    (hk : k ≤ 1000) (h : |r| + |x.value| * e < 2 ^ k) (hg : |x.value| * e + roundoff k ≤ g) :
    (x * y).Near r g := by
  have hexact : |x.value * y.value - r| ≤ |x.value| * e := by
    rw [← hr, ← mul_sub, abs_mul]
    exact mul_le_mul_of_nonneg_left hy.abs_sub_le (abs_nonneg _)
  exact (near_of_rounded hexact h (near_mul hx hy.finite hk)).mono hg

lemma units_pos (hy : y.isPositive = true) : 0 < y.units := by
  have hlt := strictMono_unitsAt (bounds_of_isPositive hy).2.1
  rwa [unitsAt_zero] at hlt

/-- A quotient by a positive number is that of the units, rounded once. -/
lemma div_of_isPositive (hx : x.isFinite = true) (hy : y.isPositive = true) :
    x / y = round (x.negative != y.negative) (x.units * unitsPerOne) y.units := by
  have hfinite := isFinite_of_isPositive hy
  have hnonzero : y.isZero = false := beq_false_of_ne (bounds_of_isPositive hy).2.1.ne'
  change div x y = _
  rw [div, isNaN_of_isFinite hx, isNaN_of_isFinite hfinite, isInfinite_of_isFinite hx,
    isInfinite_of_isFinite hfinite, hnonzero]
  rfl

/-- A quotient by a positive number is rounded once. -/
lemma near_div (hx : x.isFinite = true) (hy : y.isPositive = true) (hk : k ≤ 1000)
    (h : |x.value / y.value| < 2 ^ k) : (x / y).Near (x.value / y.value) (roundoff k) := by
  obtain ⟨hsign, -, -⟩ := bounds_of_isPositive hy
  have hunits : (0 : ℚ) < y.units := by exact_mod_cast units_pos hy
  have hcancel : (x.units / unitsPerOne : ℚ) / (y.units / unitsPerOne) =
      (x.units * unitsPerOne : Nat) / y.units / unitsPerOne := by
    have := unitsPerOne_pos.ne'
    push_cast
    field_simp
  have hvalue : x.value / y.value = signOf (x.negative != y.negative) *
      ((x.units * unitsPerOne : Nat) / y.units / unitsPerOne) := by
    have hone : signOf false = 1 := rfl
    rw [← hcancel, value, value, hsign, signOf_bne, hone, one_mul, mul_one, mul_div_assoc]
  rw [abs_div, abs_value, abs_value, hcancel, div_lt_iff₀ unitsPerOne_pos] at h
  rw [div_of_isPositive hx hy, hvalue]
  exact near_round _ (units_pos hy) hk h

/-! ### Whole numbers -/

/-- A whole number that has fifty-three bits is not rounded. -/
lemma round_whole {n : Nat} (h : n < 2 ^ 53) :
    (round false (n * unitsPerOne) 1).isFinite = true ∧
      (round false (n * unitsPerOne) 1).units = n * unitsPerOne := by
  obtain ⟨m, hm, hone⟩ := exists_unitsPerOne_eq
  have hsize : 53 + (m + 53) ≤ 2097 := by omega
  have hbound : n * unitsPerOne < 2 ^ (53 + (m + 53)) * 1 := by
    rw [hone, mul_one, pow_add 2 53]
    exact Nat.mul_lt_mul_of_pos_right h (Nat.two_pow_pos _)
  have hexponent : exponent (n * unitsPerOne) 1 ≤ m + 53 :=
    (exponent_le hbound).trans_eq (Nat.add_sub_cancel_left 53 (m + 53))
  have hdvd : 1 * 2 ^ exponent (n * unitsPerOne) 1 ∣ n * unitsPerOne := by
    rw [one_mul, hone]
    rw [hone] at hexponent
    exact (pow_dvd_pow 2 hexponent).mul_left n
  have hexact := unitsAt_nearestRank_of_dvd one_pos hdvd
  obtain ⟨hfinite, hrank⟩ :=
    round_of_lt false (nearestRank_lt_infinityRank one_pos hsize hbound)
  refine ⟨hfinite, ?_⟩
  rw [mul_one] at hexact
  rw [units, hrank, hexact]

/-- A natural number that has fifty-three bits has its units. -/
lemma units_ofNat {n : Nat} (h : n < 2 ^ 53) : (ofNat n).units = n * unitsPerOne :=
  (round_whole h).2

/-- A natural number that has fifty-three bits has its value. -/
lemma value_ofNat {n : Nat} (h : n < 2 ^ 53) : (ofNat n).isFinite = true ∧ (ofNat n).value = n := by
  refine ⟨(round_whole h).1, ?_⟩
  rw [value, units_ofNat h, Nat.cast_mul, mul_div_assoc, div_self unitsPerOne_pos.ne', mul_one]
  exact one_mul _

/-- A natural number of thirty-two bits divided by a number that is not small. -/
lemma near_ofNat_div {n : Nat} (hn : n < 2 ^ 32) (hy : y.isPositive = true) (hlow : 32 ≤ y.value) :
    |(n : ℚ) / y.value| < 2 ^ 27 ∧ (ofNat n / y).Near (n / y.value) (roundoff 27) := by
  have hcast : (n : ℚ) < 2 ^ 32 := by exact_mod_cast hn
  obtain ⟨hfinite, hvalue⟩ := value_ofNat (hn.trans (by norm_num))
  have hquotient : |(n : ℚ) / y.value| < 2 ^ 27 := by
    rw [abs_of_nonneg (div_nonneg (Nat.cast_nonneg n) (by linarith)), div_lt_iff₀ (by linarith)]
    linarith
  refine ⟨hquotient, ?_⟩
  rw [← hvalue] at hquotient ⊢
  exact near_div hfinite hy (by norm_num) hquotient

/-- A natural number that has fifty-three bits is its own whole part. -/
lemma toNat64_round_whole {n : Nat} (h : n < 2 ^ 53) :
    (round false (n * unitsPerOne) 1).toNat64 = n := by
  obtain ⟨hfinite, hunits⟩ := round_whole h
  rw [toNat64, wholePart, isNaN_of_isFinite hfinite, isInfinite_of_isFinite hfinite, hunits,
    Nat.mul_div_cancel _ (by decide)]
  refine (if_neg Bool.false_ne_true).trans ?_
  exact Nat.min_eq_left (h.le.trans (by decide))

/-- Without the sign bit a value is that of its units. -/
lemma value_of_nonneg (hsign : x.negative = false) : x.value = x.units / unitsPerOne := by
  rw [value, hsign]
  exact one_mul _

/-- **The whole part** of a positive number is that of its value. -/
lemma toNat64_floor (hx : x.isFinite = true) (hpos : 0 < x.value) (hlt : x.value < 2 ^ 53) :
    x.floor.toNat64 = ⌊x.value⌋₊ := by
  have hsign : x.negative = false := by
    by_contra hneg
    have hunits : (0 : ℚ) ≤ x.units / unitsPerOne := by positivity
    rw [value, signOf, if_pos (Bool.eq_true_of_not_eq_false hneg)] at hpos
    linarith
  have hfloor : ⌊x.value⌋₊ = x.units / unitsPerOne := by
    rw [value_of_nonneg hsign, Nat.floor_div_eq_div]
  have hsmall : x.units / unitsPerOne < 2 ^ 53 := by
    rw [← hfloor]
    exact (Nat.floor_lt hpos.le).mpr (by exact_mod_cast hlt)
  have hrounded : x.floor = round false (x.units / unitsPerOne * unitsPerOne) 1 := by
    rw [floor, toWhole, if_pos hx, hsign]
    rfl
  rw [hfloor, hrounded, toNat64_round_whole hsmall]

/-- The ceiling of a quotient of naturals. -/
lemma ceil_natCast_div (num : Nat) {den : Nat} (hden : 0 < den) :
    ⌈(num / den : ℚ)⌉₊ = (num + (den - 1)) / den := by
  have hpos : (0 : ℚ) < den := by exact_mod_cast hden
  rw [← Nat.add_sub_assoc hden, ← Nat.ceilDiv_eq_add_pred_div]
  refine eq_of_forall_ge_iff fun n => ?_
  rw [Nat.ceil_le, div_le_iff₀ hpos, ceilDiv_le_iff_le_mul hden, Nat.mul_comm]
  exact_mod_cast Iff.rfl

/-- **The next whole number** from a number that is not negative is that from its value. -/
lemma toNat64_ceil (hx : x.isFinite = true) (hsign : x.negative = false)
    (hle : x.value ≤ 2 ^ 52) : x.ceil.toNat64 = ⌈x.value⌉₊ := by
  have hceil : ⌈x.value⌉₊ = (x.units + (unitsPerOne - 1)) / unitsPerOne := by
    rw [value_of_nonneg hsign]
    exact ceil_natCast_div x.units (by decide)
  have hsmall : (x.units + (unitsPerOne - 1)) / unitsPerOne < 2 ^ 53 := by
    have hbound : ⌈x.value⌉₊ ≤ 2 ^ 52 := Nat.ceil_le.mpr (by exact_mod_cast hle)
    omega
  have hrounded :
      x.ceil = round false ((x.units + (unitsPerOne - 1)) / unitsPerOne * unitsPerOne) 1 := by
    rw [ceil, toWhole, if_pos hx, hsign, if_neg Bool.false_ne_true]
  rw [hceil, hrounded, toNat64_round_whole hsmall]

end ChipScore.Binary64
