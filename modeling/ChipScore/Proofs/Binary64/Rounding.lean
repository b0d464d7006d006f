import Mathlib.Tactic
import ChipScore.Binary64

/-!
# Rounding

A quotient of units is rounded by `nearestRank` in two steps: its size gives an `exponent`, and the
quotient in steps of `2 ^ exponent` units is rounded to a whole number, its `mantissa`.  The
mantissa has fifty-three bits at most, and exactly as many if the exponent is not zero
(`mantissa_le`, `binade_le_mantissa`), so that the rank and the units of the result are both read
off it (`nearestRank_eq`, `unitsAt_nearestRank`).

From there on four things are known of the result: it is at most half a step off
(`nearestRank_near`), it is the quotient itself if that is a whole number of steps
(`unitsAt_nearestRank_of_dvd`), it does not become smaller when the quotient grows
(`nearestRank_mono`), and it is beyond an even mantissa just if the quotient is beyond it by more
than half a step (`nearestRank_le_iff`).
-/

namespace ChipScore.Binary64

/-! ### Whole numbers -/

section RoundHalfEven

variable {num num' den : Nat}

/-- A rounded quotient is at most one half off. -/
lemma roundHalfEven_near (num : Nat) (hden : 0 < den) :
    2 * num ≤ 2 * (roundHalfEven num den * den) + den ∧
      2 * (roundHalfEven num den * den) ≤ 2 * num + den := by
  have hsplit : num / den * den + num % den = num := Nat.div_add_mod' num den
  have hrest : num % den < den := Nat.mod_lt num hden
  unfold roundHalfEven
  simp only
  split_ifs with hbelow habove
  · omega
  · rw [Nat.add_one_mul (num / den) den]
    omega
  · rcases Nat.mod_two_eq_zero_or_one (num / den) with heven | hodd
    · rw [heven, Nat.add_zero]
      omega
    · rw [hodd, Nat.add_one_mul (num / den) den]
      omega

/-- A whole quotient is not changed. -/
lemma roundHalfEven_mul (n : Nat) (hden : 0 < den) : roundHalfEven (n * den) den = n := by
  unfold roundHalfEven
  simp only
  rw [Nat.mul_mod_left, Nat.mul_div_cancel n hden, if_pos (by omega)]

/-- A greater quotient is not rounded to a smaller number. -/
lemma roundHalfEven_mono (hden : 0 < den) (h : num ≤ num') :
    roundHalfEven num den ≤ roundHalfEven num' den := by
  by_contra hlt
  have hsucc : (roundHalfEven num' den + 1) * den ≤ roundHalfEven num den * den :=
    Nat.mul_le_mul_right den (by omega)
  rw [Nat.succ_mul] at hsucc
  have hnear := roundHalfEven_near num hden
  have hnear' := roundHalfEven_near num' hden
  -- both quotients can only be half way between the two results, so they are the same
  obtain rfl : num = num' := by omega
  exact hlt le_rfl

/-- A quotient that is not above a whole number is not rounded above it. -/
lemma roundHalfEven_le {bound : Nat} (hden : 0 < den) (h : num ≤ bound * den) :
    roundHalfEven num den ≤ bound :=
  (roundHalfEven_mono hden h).trans_eq (roundHalfEven_mul bound hden)

/-- A quotient that is not below a whole number is not rounded below it. -/
lemma le_roundHalfEven {bound : Nat} (hden : 0 < den) (h : bound * den ≤ num) :
    bound ≤ roundHalfEven num den :=
  (roundHalfEven_mul bound hden).symm.trans_le (roundHalfEven_mono hden h)

/-- A quotient is rounded to an even number or below just if it is at most one half above it. -/
lemma roundHalfEven_le_iff {bound : Nat} (hden : 0 < den) (heven : bound % 2 = 0) :
    roundHalfEven num den ≤ bound ↔ 2 * num ≤ (2 * bound + 1) * den := by
  constructor
  · intro h
    calc 2 * num ≤ 2 * (roundHalfEven num den * den) + den := (roundHalfEven_near num hden).1
      _ ≤ 2 * (bound * den) + den := by gcongr
      _ = (2 * bound + 1) * den := by ring
  · intro h
    have hsplit : num / den * den + num % den = num := Nat.div_add_mod' num den
    have hexpand : (2 * bound + 1) * den = 2 * (bound * den) + den := by ring
    have hfloor : num / den ≤ bound := by
      refine Nat.le_of_lt_succ ((Nat.div_lt_iff_lt_mul hden).mpr ?_)
      rw [Nat.succ_mul]
      omega
    unfold roundHalfEven
    simp only
    -- at the tie the floor is the bound, which is even and stays
    rcases hfloor.lt_or_eq with hlt | heq
    · split_ifs <;> omega
    · rw [heq] at hsplit ⊢
      split_ifs <;> omega

/-- A common factor makes no difference. -/
lemma roundHalfEven_mul_mul (num den : Nat) {factor : Nat} (hfactor : 0 < factor) :
    roundHalfEven (num * factor) (den * factor) = roundHalfEven num den := by
  unfold roundHalfEven
  simp only
  rw [Nat.mul_div_mul_right _ _ hfactor, Nat.mul_mod_mul_right, ← Nat.mul_assoc]
  simp only [Nat.mul_lt_mul_right hfactor]

end RoundHalfEven

/-! ### Ranks -/

/-- There are 2^52 magnitudes in a binade. -/
lemma binade_eq : binade = 2 ^ 52 := by
  rw [binade, Nat.one_shiftLeft]

/-- The units of a rank, when it is a number of binades and a mantissa. -/
lemma unitsAt_add {exponent mantissa : Nat} (hlow : exponent ≠ 0 → binade ≤ mantissa)
    (hhigh : mantissa ≤ 2 * binade) :
    unitsAt (exponent * binade + mantissa) = mantissa * 2 ^ exponent := by
  have hbinade : 0 < binade := by decide
  -- the mantissas within a binade, and the first one of the next, which has its own exponent
  rcases hhigh.lt_or_eq with hlt | rfl
  · by_cases hsmall : mantissa < binade
    · obtain rfl : exponent = 0 := by
        by_contra hne
        exact absurd (hlow hne) (Nat.not_le.mpr hsmall)
      rw [Nat.zero_mul, Nat.zero_add, unitsAt, if_pos hsmall, pow_zero, Nat.mul_one]
    · obtain ⟨offset, rfl⟩ := Nat.exists_eq_add_of_le (Nat.not_lt.mp hsmall)
      have hrank : exponent * binade + (binade + offset) = offset + binade * (exponent + 1) := by
        ring
      have hdiv : (offset + binade * (exponent + 1)) / binade = exponent + 1 := by
        rw [Nat.add_mul_div_left _ _ hbinade, Nat.div_eq_of_lt (by omega), Nat.zero_add]
      have hmod : (offset + binade * (exponent + 1)) % binade = offset := by
        rw [Nat.add_mul_mod_self_left, Nat.mod_eq_of_lt (by omega)]
      have hge : ¬offset + binade * (exponent + 1) < binade := by
        rw [Nat.mul_succ]
        omega
      rw [hrank, unitsAt, if_neg hge, hdiv, hmod, Nat.add_sub_cancel, Nat.shiftLeft_eq]
  · have hrank : exponent * binade + 2 * binade = binade * (exponent + 2) := by
      ring
    have hge : ¬binade * (exponent + 2) < binade := by
      rw [Nat.mul_add]
      omega
    rw [hrank, unitsAt, if_neg hge, Nat.mul_div_cancel_left _ hbinade, Nat.mul_mod_right,
      Nat.add_zero, Nat.shiftLeft_eq, Nat.add_sub_assoc (by decide), pow_add]
    ring

lemma unitsAt_zero : unitsAt 0 = 0 := by
  decide

/-- Every rank is a number of binades and a mantissa. -/
lemma exists_exponent_mantissa (rank : Nat) :
    ∃ exponent mantissa, rank = exponent * binade + mantissa ∧
      (exponent ≠ 0 → binade ≤ mantissa) ∧ mantissa < 2 * binade := by
  have hsplit : rank / binade * binade + rank % binade = rank := Nat.div_add_mod' rank binade
  have hrest : rank % binade < binade := Nat.mod_lt rank (by decide)
  cases hcount : rank / binade with
  | zero => exact ⟨0, rank, by omega, fun h => absurd rfl h, by rw [hcount] at hsplit; omega⟩
  | succ count =>
    refine ⟨count, binade + rank % binade, ?_, fun _ => Nat.le_add_right _ _, by omega⟩
    rw [hcount, Nat.succ_mul] at hsplit
    omega

/-- A greater rank is a greater magnitude. -/
lemma strictMono_unitsAt : StrictMono unitsAt := by
  refine strictMono_nat_of_lt_succ fun rank => ?_
  obtain ⟨exponent, mantissa, rfl, hlow, hhigh⟩ := exists_exponent_mantissa rank
  rw [Nat.add_assoc, unitsAt_add hlow hhigh.le,
    unitsAt_add (fun h => (hlow h).trans (Nat.le_succ _)) hhigh]
  exact Nat.mul_lt_mul_of_pos_right (Nat.lt_succ_self _) (Nat.two_pow_pos _)

/-! ### Rounding to a rank -/

/-- The steps to which a quotient of units is rounded are powers of two. -/
def exponent (num den : Nat) : Nat :=
  (num / den).log2 - 52

/-- A quotient of units in steps, rounded. -/
def mantissa (num den : Nat) : Nat :=
  roundHalfEven num (den <<< exponent num den)

/-- A rank is reached over the exponent's binades. -/
lemma nearestRank_eq (num den : Nat) :
    nearestRank num den = exponent num den * binade + mantissa num den :=
  rfl

section NearestRank

variable {num num' den k : Nat}

lemma shiftLeft_pos (hden : 0 < den) (exponent : Nat) : 0 < den <<< exponent := by
  rw [Nat.shiftLeft_eq]
  exact Nat.mul_pos hden (Nat.two_pow_pos exponent)

/-- The exponent of a quotient below a power of two. -/
lemma exponent_le (h : num < 2 ^ k * den) : exponent num den ≤ k - 53 := by
  have hquotient : num / den < 2 ^ k := Nat.div_lt_of_lt_mul (by rwa [Nat.mul_comm])
  rw [exponent]
  by_cases hzero : num / den = 0
  · rw [hzero, Nat.log2_zero]
    omega
  · have hlog : (num / den).log2 < k := (Nat.log2_lt hzero).mpr hquotient
    omega

/-- A quotient has no more bits than its exponent leaves room for. -/
lemma lt_exponent (num : Nat) (hden : 0 < den) : num < 2 ^ (exponent num den + 53) * den := by
  refine (Nat.div_lt_iff_lt_mul hden).mp ?_
  refine Nat.lt_log2_self.trans_le (Nat.pow_le_pow_right two_pos ?_)
  rw [exponent]
  omega

/-- If the exponent is not zero, a quotient has as many bits. -/
lemma exponent_self_le (hden : 0 < den) (h : exponent num den ≠ 0) :
    2 ^ (exponent num den + 52) * den ≤ num := by
  refine (Nat.le_div_iff_mul_le hden).mp ?_
  rw [exponent] at h ⊢
  rw [Nat.sub_add_cancel (by omega)]
  refine Nat.log2_self_le fun hzero => ?_
  rw [hzero, Nat.log2_zero] at h
  omega

/-- The exponent of a quotient between two powers of two. -/
lemma exponent_eq (hden : 0 < den) (hlow : 2 ^ (k + 52) * den ≤ num)
    (hhigh : num < 2 ^ (k + 53) * den) : exponent num den = k := by
  have hle : exponent num den ≤ k := (exponent_le hhigh).trans_eq (Nat.add_sub_cancel k 53)
  have hlt : 2 ^ (k + 52) < 2 ^ (exponent num den + 53) :=
    Nat.lt_of_mul_lt_mul_right (hlow.trans_lt (lt_exponent num hden))
  have hexponent := (Nat.pow_lt_pow_iff_right one_lt_two).mp hlt
  omega

/-- The mantissa has fifty-three bits, or is the least number with one more. -/
lemma mantissa_le (num : Nat) (hden : 0 < den) : mantissa num den ≤ 2 * binade := by
  refine roundHalfEven_le (shiftLeft_pos hden _) ?_
  calc num ≤ 2 ^ (exponent num den + 53) * den := (lt_exponent num hden).le
    _ = 2 * binade * den <<< exponent num den := by
        rw [Nat.shiftLeft_eq, binade_eq]
        ring

/-- If the exponent is not zero, the mantissa has fifty-three bits. -/
lemma binade_le_mantissa (hden : 0 < den) (h : exponent num den ≠ 0) :
    binade ≤ mantissa num den := by
  refine le_roundHalfEven (shiftLeft_pos hden _) ?_
  calc binade * den <<< exponent num den = 2 ^ (exponent num den + 52) * den := by
        rw [Nat.shiftLeft_eq, binade_eq]
        ring
    _ ≤ num := exponent_self_le hden h

/-- What a quotient is rounded to is a whole number of steps. -/
lemma unitsAt_nearestRank (num : Nat) (hden : 0 < den) :
    unitsAt (nearestRank num den) = mantissa num den * 2 ^ exponent num den := by
  rw [nearestRank_eq]
  exact unitsAt_add (binade_le_mantissa hden) (mantissa_le num hden)

/-- If a quotient has fifty-three bits before its point, these are rounded, and a power of two in
front of it stays.  A common factor makes no difference. -/
lemma unitsAt_nearestRank_mul {factor : Nat} (hden : 0 < den) (hfactor : 0 < factor)
    (hlow : den * 2 ^ 52 ≤ num) (hhigh : num < den * 2 ^ 53) (k : Nat) :
    unitsAt (nearestRank (num * 2 ^ k * factor) (den * factor)) =
      roundHalfEven num den * 2 ^ k := by
  have hcommon : 0 < 2 ^ k * factor := Nat.mul_pos (Nat.two_pow_pos k) hfactor
  have hexponent : exponent (num * 2 ^ k * factor) (den * factor) = k := by
    refine exponent_eq (Nat.mul_pos hden hfactor) ?_ ?_
    · calc 2 ^ (k + 52) * (den * factor) = den * 2 ^ 52 * (2 ^ k * factor) := by ring
        _ ≤ num * (2 ^ k * factor) := Nat.mul_le_mul_right _ hlow
        _ = num * 2 ^ k * factor := (Nat.mul_assoc _ _ _).symm
    · calc num * 2 ^ k * factor = num * (2 ^ k * factor) := Nat.mul_assoc _ _ _
        _ < den * 2 ^ 53 * (2 ^ k * factor) := Nat.mul_lt_mul_of_pos_right hhigh hcommon
        _ = 2 ^ (k + 53) * (den * factor) := by ring
  have hsteps : den * factor * 2 ^ k = den * (2 ^ k * factor) := by ring
  rw [unitsAt_nearestRank _ (Nat.mul_pos hden hfactor), mantissa, hexponent, Nat.shiftLeft_eq,
    hsteps, Nat.mul_assoc, roundHalfEven_mul_mul num den hcommon]

/-- What a quotient is rounded to is at most half a step off. -/
lemma nearestRank_near (num : Nat) (hden : 0 < den) :
    2 * num ≤ 2 * (unitsAt (nearestRank num den) * den) + den * 2 ^ exponent num den ∧
      2 * (unitsAt (nearestRank num den) * den) ≤ 2 * num + den * 2 ^ exponent num den := by
  have hnear := roundHalfEven_near num (shiftLeft_pos hden (exponent num den))
  have hunits : unitsAt (nearestRank num den) * den =
      mantissa num den * den <<< exponent num den := by
    rw [unitsAt_nearestRank num hden, Nat.shiftLeft_eq]
    ring
  rw [hunits, ← Nat.shiftLeft_eq]
  exact hnear

/-- A whole number of steps is not changed. -/
lemma unitsAt_nearestRank_of_dvd (hden : 0 < den) (h : den * 2 ^ exponent num den ∣ num) :
    unitsAt (nearestRank num den) * den = num := by
  obtain ⟨steps, hsteps⟩ := h
  have hmantissa : mantissa num den = steps := by
    have hnum : num = steps * den <<< exponent num den := by
      rw [Nat.shiftLeft_eq, Nat.mul_comm]
      exact hsteps
    rw [mantissa]
    nth_rewrite 1 [hnum]
    exact roundHalfEven_mul steps (shiftLeft_pos hden _)
  rw [unitsAt_nearestRank num hden, hmantissa]
  conv_rhs => rw [hsteps]
  ring

/-- A greater quotient is not rounded to a smaller rank. -/
lemma nearestRank_mono (hden : 0 < den) (h : num ≤ num') :
    nearestRank num den ≤ nearestRank num' den := by
  have hexponent : exponent num den ≤ exponent num' den := by
    rw [exponent, exponent, Nat.log2_eq_log_two, Nat.log2_eq_log_two]
    exact Nat.sub_le_sub_right (Nat.log_mono_right (Nat.div_le_div_right h)) 52
  rw [nearestRank_eq, nearestRank_eq]
  -- either both quotients are counted in the same steps, or the greater one is binades above
  rcases hexponent.eq_or_lt with heq | hlt
  · rw [mantissa, mantissa, heq]
    exact Nat.add_le_add_left (roundHalfEven_mono (shiftLeft_pos hden _) h) _
  · calc exponent num den * binade + mantissa num den
        ≤ exponent num den * binade + 2 * binade := Nat.add_le_add_left (mantissa_le num hden) _
      _ = (exponent num den + 1) * binade + binade := by ring
      _ ≤ exponent num' den * binade + mantissa num' den :=
          Nat.add_le_add (Nat.mul_le_mul_right binade hlt)
            (binade_le_mantissa hden (Nat.ne_of_gt (Nat.zero_lt_of_lt hlt)))

/-- A quotient is rounded to a rank with an even mantissa or below just if it is at most half a step
above its magnitude. -/
lemma nearestRank_le_iff {e m : Nat} (hden : 0 < den) (hlow : binade ≤ m) (hhigh : m < 2 * binade)
    (heven : m % 2 = 0) :
    nearestRank num den ≤ e * binade + m ↔ 2 * num ≤ (2 * m + 1) * (den * 2 ^ e) := by
  have hbinade : binade = 2 ^ 52 := binade_eq
  rw [nearestRank_eq]
  rcases Nat.lt_trichotomy (exponent num den) e with hlt | rfl | hgt
  · -- the steps are smaller, and the quotient is below the rank's binade
    have hrank := mantissa_le num hden
    have hbinades : (exponent num den + 1) * binade ≤ e * binade := by gcongr; exact hlt
    have hnum : num ≤ m * (den * 2 ^ e) := by
      calc num ≤ 2 ^ (exponent num den + 53) * den := (lt_exponent num hden).le
        _ ≤ 2 ^ (e + 52) * den :=
            Nat.mul_le_mul_right den (Nat.pow_le_pow_right two_pos (by omega))
        _ = binade * (den * 2 ^ e) := by rw [hbinade]; ring
        _ ≤ m * (den * 2 ^ e) := by gcongr
    rw [Nat.succ_mul] at hbinades
    refine iff_of_true (by omega) ?_
    rw [Nat.succ_mul (2 * m), Nat.mul_assoc]
    omega
  · rw [mantissa, ← Nat.shiftLeft_eq, Nat.add_le_add_iff_left]
    exact roundHalfEven_le_iff (shiftLeft_pos hden _) heven
  · -- the steps are larger, and the quotient is above the rank's binade
    have hne : exponent num den ≠ 0 := Nat.ne_of_gt (Nat.zero_lt_of_lt hgt)
    have hrank := binade_le_mantissa hden hne
    have hbinades : (e + 1) * binade ≤ exponent num den * binade := by gcongr; exact hgt
    have hstep : 0 < den * 2 ^ e := Nat.mul_pos hden (Nat.two_pow_pos e)
    have hnum : (m + 1) * (den * 2 ^ e) ≤ num := by
      calc (m + 1) * (den * 2 ^ e) ≤ 2 * binade * (den * 2 ^ e) := by gcongr; exact hhigh
        _ = 2 ^ (e + 53) * den := by rw [hbinade]; ring
        _ ≤ 2 ^ (exponent num den + 52) * den :=
            Nat.mul_le_mul_right den (Nat.pow_le_pow_right two_pos (by omega))
        _ ≤ num := exponent_self_le hden hne
    rw [Nat.succ_mul] at hbinades hnum
    refine iff_of_false (by omega) ?_
    rw [Nat.succ_mul (2 * m), Nat.mul_assoc]
    omega

lemma nearestRank_zero (den : Nat) : nearestRank 0 den = 0 := by
  simp [nearestRank, roundHalfEven]

/-- A magnitude is rounded to its own rank. -/
lemma nearestRank_unitsAt (rank : Nat) : nearestRank (unitsAt rank) 1 = rank := by
  obtain ⟨count, rest, hrank, hlow, hhigh⟩ := exists_exponent_mantissa rank
  have hunits : unitsAt rank = rest * 2 ^ count := by
    rw [hrank]
    exact unitsAt_add hlow hhigh.le
  have hbound : unitsAt rank < 2 ^ (53 + count) * 1 := by
    rw [hunits, mul_one, pow_add]
    rw [binade_eq, ← pow_succ'] at hhigh
    exact Nat.mul_lt_mul_of_pos_right hhigh (Nat.two_pow_pos count)
  have hexponent : exponent (unitsAt rank) 1 ≤ count :=
    (exponent_le hbound).trans_eq (Nat.add_sub_cancel_left 53 count)
  have hdvd : 1 * 2 ^ exponent (unitsAt rank) 1 ∣ unitsAt rank := by
    nth_rewrite 2 [hunits]
    rw [one_mul]
    exact (pow_dvd_pow 2 hexponent).mul_left rest
  have hexact := unitsAt_nearestRank_of_dvd one_pos hdvd
  rw [mul_one] at hexact
  exact strictMono_unitsAt.injective hexact

/-- A quotient that is not too large is rounded to a finite magnitude. -/
lemma nearestRank_lt_infinityRank (hden : 0 < den) (hk : k ≤ 2097) (h : num < 2 ^ k * den) :
    nearestRank num den < infinityRank := by
  have hexponent : exponent num den ≤ 2044 := (exponent_le h).trans (by omega)
  calc nearestRank num den ≤ exponent num den * binade + 2 * binade :=
        Nat.add_le_add_left (mantissa_le num hden) _
    _ ≤ 2044 * binade + 2 * binade := by gcongr
    _ < infinityRank := by decide

end NearestRank

end ChipScore.Binary64
