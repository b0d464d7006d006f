import Mathlib.Tactic
import ChipScore.Proofs.Binary64.Rounding

/-!
# The order of numbers

The order of numbers is that of their positions.  Subtracting from the greater of two numbers leaves
no less than subtracting from the smaller one (`sub_le_sub`), although both differences are rounded:
the exact differences are in order, and rounding does not turn them round (`signedRank_mono`).  In
particular a number that is not below another leaves nothing negative when that one is subtracted
(`zero_le_sub`), and a number beyond the rounded sum of two others leaves nothing negative when both
are (`zero_le_sub_sub`).
-/

namespace ChipScore.Binary64

/-- One number is at most another.  Nothing is comparable with what is not a number. -/
instance : LE Binary64 where
  le x y := x.isNaN = false ∧ y.isNaN = false ∧ x.position ≤ y.position

instance (x y : Binary64) : Decidable (x ≤ y) :=
  inferInstanceAs (Decidable (_ ∧ _ ∧ _))

variable {x y z : Binary64}

/-- Of two numbers one is not below the other. -/
lemma le_of_lt_eq_false (hx : x.isNaN = false) (hy : y.isNaN = false) (h : x.lt y = false) :
    y ≤ x := by
  rw [lt, hx, hy] at h
  simp only [Bool.not_false, Bool.true_and, decide_eq_false_iff_not, not_lt] at h
  exact ⟨hy, hx, h⟩

lemma le_of_lt (h : x.lt y = true) : x ≤ y := by
  rw [lt, Bool.and_eq_true, Bool.and_eq_true, Bool.not_eq_true', Bool.not_eq_true',
    decide_eq_true_eq] at h
  exact ⟨h.1.1, h.1.2, h.2.le⟩

lemma isNaN_of_isFinite (h : x.isFinite = true) : x.isNaN = false := by
  have hrank : x.rank < infinityRank := of_decide_eq_true h
  exact decide_eq_false hrank.asymm

lemma isInfinite_of_isFinite (h : x.isFinite = true) : x.isInfinite = false := by
  have hrank : x.rank < infinityRank := of_decide_eq_true h
  exact beq_false_of_ne hrank.ne

/-- A number that is finite and greater than zero. -/
lemma bounds_of_isPositive (h : x.isPositive = true) :
    x.negative = false ∧ 0 < x.rank ∧ x.rank < infinityRank := by
  rw [isPositive, Bool.and_eq_true, isFinite, decide_eq_true_eq, lt, Bool.and_eq_true,
    decide_eq_true_eq] at h
  obtain ⟨hfinite, -, hposition⟩ := h
  have hzero : zero.position = 0 := rfl
  rw [hzero, position] at hposition
  split_ifs at hposition with hsign
  · omega
  · exact ⟨Bool.eq_false_of_not_eq_true hsign, by omega, hfinite⟩

lemma isFinite_of_isPositive (h : x.isPositive = true) : x.isFinite = true :=
  decide_eq_true (bounds_of_isPositive h).2.2

lemma zero_le_of_isPositive (h : x.isPositive = true) : zero ≤ x := by
  rw [isPositive, Bool.and_eq_true] at h
  exact le_of_lt h.2

/-- A positive number stands behind both zeros. -/
lemma position_pos (h : x.isPositive = true) : 0 < x.position := by
  obtain ⟨hsign, hpos, -⟩ := bounds_of_isPositive h
  rw [position, hsign]
  exact Int.natCast_pos.mpr hpos

/-- Two numbers at one place are the same, except for the two zeros. -/
lemma eq_of_position_eq (hpos : 0 < x.position) (h : x.position = y.position) : x = y := by
  have hy : 0 < y.position := h ▸ hpos
  obtain ⟨negative, rank, hrank⟩ := x
  obtain ⟨negative', rank', hrank'⟩ := y
  rw [position] at h hpos hy
  rw [position] at h
  cases negative <;> cases negative' <;> simp_all

/-! ### Rounded ranks -/

/-- A rank that is cut off at infinity's is that of a number. -/
lemma isNaN_ofRank (negative : Bool) (rank : Nat) : (ofRank negative rank).isNaN = false :=
  decide_eq_false (Nat.not_lt.mpr (min_le_right rank infinityRank))

/-- The position to which a whole number of units is rounded. -/
def signedRank (n : Int) : Int :=
  (round (n < 0) n.natAbs 1).position

/-- The position of a rank that may be cut off. -/
lemma position_ofRank (negative : Bool) (rank : Nat) :
    (ofRank negative rank).position =
      if negative then -((Min.min rank infinityRank : Nat) : Int)
      else ((Min.min rank infinityRank : Nat) : Int) :=
  rfl

/-- No units are rounded to zero. -/
lemma signedRank_zero : signedRank 0 = 0 := by
  rw [signedRank, round, Int.natAbs_zero, nearestRank_zero]
  rfl

/-- Rounding does not turn two numbers of units round. -/
lemma signedRank_mono {m n : Int} (h : m ≤ n) : signedRank m ≤ signedRank n := by
  have hcut {a b : Nat} (hab : a ≤ b) :
      Min.min (nearestRank a 1) infinityRank ≤ Min.min (nearestRank b 1) infinityRank :=
    min_le_min_right _ (nearestRank_mono one_pos hab)
  simp only [signedRank, round, position_ofRank, decide_eq_true_eq]
  -- below zero the greater magnitude is the smaller number, and the signs decide the rest
  split_ifs with hm hn
  · have := hcut (show n.natAbs ≤ m.natAbs by omega)
    omega
  · omega
  · omega
  · have := hcut (show m.natAbs ≤ n.natAbs by omega)
    omega

/-- No number lies beyond the infinities. -/
lemma signedRank_bounds (n : Int) :
    -(infinityRank : Int) ≤ signedRank n ∧ signedRank n ≤ infinityRank := by
  have hcut := min_le_right (nearestRank n.natAbs 1) infinityRank
  simp only [signedRank, round, position_ofRank, decide_eq_true_eq]
  split_ifs <;> omega

/-- A finite number is where its units are rounded to. -/
lemma signedRank_signedUnits (h : x.isFinite = true) : signedRank x.signedUnits = x.position := by
  have hrank : x.rank < infinityRank := of_decide_eq_true h
  have hcut : Min.min (nearestRank x.units 1) infinityRank = x.rank := by
    rw [units, nearestRank_unitsAt]
    exact min_eq_left hrank.le
  have hzero := unitsAt_zero
  rw [signedRank, round, position_ofRank, position, signedUnits]
  cases hsign : x.negative
  · simp only [Bool.false_eq_true, if_false, Int.natAbs_natCast, decide_eq_true_eq]
    rw [if_neg (by omega), hcut]
  · simp only [if_true, Int.natAbs_neg, Int.natAbs_natCast, decide_eq_true_eq, hcut]
    split_ifs with hneg
    · rfl
    · -- a number without units is a zero
      have hrankZero : x.rank = 0 := by
        refine strictMono_unitsAt.injective ?_
        change x.units = _
        omega
      rw [hrankZero]
      rfl

/-! ### Sums and differences -/

/-- Numbers have their units in order. -/
lemma signedUnits_le_signedUnits (h : x.position ≤ y.position) :
    x.signedUnits ≤ y.signedUnits := by
  have hmono {a b : Nat} (hab : a ≤ b) : unitsAt a ≤ unitsAt b :=
    strictMono_unitsAt.monotone hab
  rw [position, position] at h
  rw [signedUnits, signedUnits, units, units]
  -- a number with the sign bit is not below one without it unless both are zeros
  split_ifs at h ⊢
  · have := hmono (show y.rank ≤ x.rank by omega)
    omega
  · omega
  · have hx : x.rank = 0 := by omega
    have hy : y.rank = 0 := by omega
    rw [hx, hy, unitsAt_zero]
    exact le_rfl
  · have := hmono (show x.rank ≤ y.rank by omega)
    omega

/-- A number with the other sign has the units of the other sign. -/
lemma signedUnits_neg (x : Binary64) : x.neg.signedUnits = -x.signedUnits := by
  rw [signedUnits, signedUnits, neg, units, units]
  cases x.negative <;> simp

/-- Adding finite numbers is none of the special cases. -/
lemma add_of_isFinite (hx : x.isFinite = true) (hy : y.isFinite = true) :
    x + y = addFinite x y := by
  change add x y = _
  rw [add, isNaN_of_isFinite hx, isNaN_of_isFinite hy, isInfinite_of_isFinite hx,
    isInfinite_of_isFinite hy]
  rfl

/-- A sum of finite numbers is a rounded number of units. -/
lemma position_add (hx : x.isFinite = true) (hy : y.isFinite = true) :
    (x + y).isNaN = false ∧ (x + y).position = signedRank (x.signedUnits + y.signedUnits) := by
  rw [add_of_isFinite hx hy, addFinite]
  split_ifs with hsum
  · rw [hsum, signedRank_zero, signedZero, position_ofRank]
    exact ⟨isNaN_ofRank _ _, by simp⟩
  · exact ⟨isNaN_ofRank _ _, rfl⟩

/-- Adding what is not negative makes nothing smaller. -/
lemma le_add (hx : x.isFinite = true) (hy : y.isFinite = true) (h : zero ≤ y) : x ≤ x + y := by
  have hunits : 0 ≤ y.signedUnits := signedUnits_le_signedUnits h.2.2
  refine ⟨isNaN_of_isFinite hx, (position_add hx hy).1, ?_⟩
  rw [(position_add hx hy).2, ← signedRank_signedUnits hx]
  exact signedRank_mono (by omega)

/-- A difference of finite numbers is a rounded number of units. -/
lemma position_sub (hx : x.isFinite = true) (hz : z.isFinite = true) :
    (x - z).isNaN = false ∧ (x - z).position = signedRank (x.signedUnits - z.signedUnits) := by
  rw [Int.sub_eq_add_neg, ← signedUnits_neg]
  exact position_add (y := z.neg) hx hz

/-- A number that is not finite has the rank of infinity. -/
lemma rank_of_infinite (hy : y.isNaN = false) (hinfinite : y.isFinite = false) :
    y.rank = infinityRank := by
  have hge : ¬y.rank < infinityRank := of_decide_eq_false hinfinite
  have hle : ¬infinityRank < y.rank := of_decide_eq_false hy
  omega

/-- A number that is not finite stands at one end of the line. -/
lemma position_of_infinite (hy : y.isNaN = false) (hinfinite : y.isFinite = false) :
    y.position = infinityRank ∨ y.position = -(infinityRank : Int) := by
  rw [position, rank_of_infinite hy hinfinite]
  split_ifs
  · exact .inr rfl
  · exact .inl rfl

/-- What is finite does not matter to what is infinite. -/
lemma sub_of_infinite (hy : y.isNaN = false) (hinfinite : y.isFinite = false)
    (hz : z.isFinite = true) : y - z = y := by
  have hneg : z.neg.isFinite = true := hz
  change add y z.neg = y
  rw [add, hy, isNaN_of_isFinite hneg, isInfinite_of_isFinite hneg, isInfinite,
    rank_of_infinite hy hinfinite]
  simp

/-- **Subtraction keeps the order**, also if the greater number is infinite. -/
lemma sub_le_sub (h : x ≤ y) (hx : x.isFinite = true) (hz : z.isFinite = true) :
    x - z ≤ y - z := by
  obtain ⟨hxnan, hynan, hposition⟩ := h
  obtain ⟨hleft, hleftPosition⟩ := position_sub hx hz
  by_cases hy : y.isFinite = true
  · obtain ⟨hright, hrightPosition⟩ := position_sub hy hz
    refine ⟨hleft, hright, ?_⟩
    rw [hleftPosition, hrightPosition]
    exact signedRank_mono (Int.sub_le_sub_right (signedUnits_le_signedUnits hposition) _)
  · have hinfinite : y.isFinite = false := Bool.eq_false_of_not_eq_true hy
    rw [sub_of_infinite hynan hinfinite hz]
    refine ⟨hleft, hynan, ?_⟩
    have hbounds := signedRank_bounds (x.signedUnits - z.signedUnits)
    have hxbounds : -(infinityRank : Int) < x.position := by
      have hxrank : x.rank < infinityRank := of_decide_eq_true hx
      rw [position]
      split_ifs <;> omega
    rw [hleftPosition]
    rcases position_of_infinite hynan hinfinite with hend | hend <;> omega

/-- What is not below a number leaves nothing negative when that number is subtracted. -/
lemma zero_le_sub (h : z ≤ x) (hz : z.isFinite = true) : zero ≤ x - z := by
  have hself : (z - z).position = 0 := by
    rw [(position_sub hz hz).2, Int.sub_self, signedRank_zero]
  obtain ⟨-, hnan, hposition⟩ := sub_le_sub h hz hz
  rw [hself] at hposition
  exact ⟨rfl, hnan, hposition⟩

/-- What is above the rounded sum of two numbers leaves nothing negative without them. -/
lemma zero_le_sub_sub (hx : x.isFinite = true) (hy : y.isFinite = true) (hz : z.isNaN = false)
    (h : (x + y).position < z.position) : zero ≤ z - x - y := by
  by_cases hfinite : z.isFinite = true
  · -- what is above the rounded sum is above the exact one, for else it would be rounded to no more
    have hlt : x.signedUnits + y.signedUnits < z.signedUnits := by
      by_contra hge
      have hposition := signedRank_mono (not_lt.mp hge)
      rw [signedRank_signedUnits hfinite, ← (position_add hx hy).2] at hposition
      omega
    -- so the exact difference is above the second number, which rounding may reach but not pass
    have hle : y ≤ z - x := by
      refine ⟨isNaN_of_isFinite hy, (position_sub hfinite hx).1, ?_⟩
      rw [(position_sub hfinite hx).2, ← signedRank_signedUnits hy]
      exact signedRank_mono (by omega)
    exact zero_le_sub hle hy
  · have hinfinite : z.isFinite = false := Bool.eq_false_of_not_eq_true hfinite
    have hbelow := (signedRank_bounds (x.signedUnits + y.signedUnits)).1
    rw [← (position_add hx hy).2] at hbelow
    rw [sub_of_infinite hz hinfinite hx, sub_of_infinite hz hinfinite hy]
    have hpositive : 0 ≤ z.position := by
      rcases position_of_infinite hz hinfinite with hposition | hposition <;> omega
    exact ⟨rfl, hz, hpositive⟩

/-! ### Quotients -/

/-- A number without the sign bit divided by a positive one is not negative. -/
lemma zero_le_div (hsign : x.negative = false) (hx : x.isNaN = false) (hy : y.isPositive = true) :
    zero ≤ x / y := by
  obtain ⟨hysign, hpos, hfinite⟩ := bounds_of_isPositive hy
  have hnan : y.isNaN = false := decide_eq_false (by omega)
  have hinfinite : y.isInfinite = false := beq_false_of_ne (by omega)
  have hnonzero : y.isZero = false := beq_false_of_ne (by omega)
  have hrank (rank : Nat) : zero ≤ ofRank false rank :=
    ⟨rfl, isNaN_ofRank _ _, Int.natCast_nonneg _⟩
  change zero ≤ div x y
  rw [div]
  simp only [hx, hnan, hinfinite, hnonzero, hsign, hysign, Bool.or_false, Bool.false_eq_true,
    if_false, bne_self_eq_false]
  split_ifs
  · exact hrank _
  · exact hrank _

/-- The lesser of two numbers is not negative if neither of them is. -/
lemma zero_le_min (hx : zero ≤ x) (hy : zero ≤ y) : zero ≤ x.min y := by
  rw [min]
  split_ifs
  · exact hy
  · exact hx

end ChipScore.Binary64
