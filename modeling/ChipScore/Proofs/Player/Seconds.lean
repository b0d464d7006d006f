import Mathlib.Tactic
import ChipScore.Proofs.Binary64.Value
import ChipScore.Proofs.Player.FrameBoundaries

/-!
# Frames in seconds

The seconds of a number of frames are a quotient by the rate, and the frames in these seconds are
their product with the rate.  Both are rounded, and a product that is a little more than a whole
number counts as one more.  The errors are small (`near_recounted`), so that no frame is lost and at
most one is gained.

Whether one is gained is decided by the first rounding.  The number of frames has an even mantissa,
so the second rounding returns to it from half of its last place
(`HasMantissa.recountedUnits_le_iff`).  But the seconds may be rounded up by more than that, counted
in frames.  `GainsFrame` says when, in whole numbers, and it happens at both rates of a player
(`gained_frames`).
-/

namespace ChipScore

open Binary64

namespace FrameClock

/-- A number with zeros behind it, up to fifty-eight bits. -/
def aligned (n : Nat) : Nat :=
  n * 2 ^ (57 - n.log2)

/-- The seconds of a number of frames begin another frame.

A quotient of fifty-eight bits by a rate of six has fifty-two bits or more before its point.  If it
has fifty-three, these are its mantissa, and the rate times the rounded mantissa may be more than
what was divided.  The product is rounded to the nearest of the numbers with fifty-three bits, which
are thirty-two apart here, so that the frames are left behind if it is more by above sixteen.  A
quotient with a bit less is rounded behind its point, and is never so far off. -/
def GainsFrame (rate frames : Nat) : Prop :=
  rate * 2 ^ 52 ≤ aligned frames ∧
    aligned frames + 16 < rate * roundHalfEven (aligned frames) rate

instance (rate frames : Nat) : Decidable (GainsFrame rate frames) :=
  inferInstanceAs (Decidable (_ ∧ _))

/-- The frames that are counted in the seconds of a number of frames. -/
def recounted (rate frames : Nat) : Nat :=
  if GainsFrame rate frames then frames + 1 else frames

/-! ### Seconds and back -/

section Recounted

variable {rate frames : Nat}

/-- Aligned numbers have fifty-eight bits. -/
lemma aligned_bounds (hne : frames ≠ 0) (hframes : frames < 2 ^ 32) :
    2 ^ 57 ≤ aligned frames ∧ aligned frames < 2 ^ 58 := by
  have hlog : frames.log2 < 32 := (Nat.log2_lt hne).mpr hframes
  have hlow : 2 ^ frames.log2 ≤ frames := Nat.log2_self_le hne
  have hhigh : frames < 2 ^ (frames.log2 + 1) := Nat.lt_log2_self
  refine ⟨?_, ?_⟩
  · calc 2 ^ 57 = 2 ^ frames.log2 * 2 ^ (57 - frames.log2) := by
          rw [← pow_add, Nat.add_sub_cancel' (by omega)]
      _ ≤ aligned frames := Nat.mul_le_mul_right _ hlow
  · calc aligned frames < 2 ^ (frames.log2 + 1) * 2 ^ (57 - frames.log2) :=
          Nat.mul_lt_mul_of_pos_right hhigh (Nat.two_pow_pos _)
      _ = 2 ^ 58 := by
          rw [← pow_add]
          exact congrArg (2 ^ ·) (by omega)

/-- A number of frames as a double-precision number, and its alignment. -/
structure HasMantissa (frames mantissa exponent : Nat) : Prop where
  /-- The units of the frames. -/
  units_eq : frames * unitsPerOne = mantissa * 2 ^ (exponent + 6)
  /-- The alignment goes five bits beyond the mantissa. -/
  aligned_eq : aligned frames = mantissa * 2 ^ 5
  /-- The mantissa has fifty-three bits. -/
  binade_le : binade ≤ mantissa
  lt_binades : mantissa < 2 * binade
  /-- The mantissa is even. -/
  even : mantissa % 2 = 0

/-- Every number of frames has a mantissa, an even one, for thirty-two bits leave the last places
empty. -/
lemma exists_hasMantissa (hne : frames ≠ 0) (hframes : frames < 2 ^ 32) :
    ∃ mantissa exponent, HasMantissa frames mantissa exponent := by
  obtain ⟨k, hk, hone⟩ := exists_unitsPerOne_eq
  have hlog : frames.log2 < 32 := (Nat.log2_lt hne).mpr hframes
  obtain ⟨hlow, hhigh⟩ := aligned_bounds hne hframes
  have hbinade : binade = 2 ^ 52 := binade_eq
  have haligned : aligned frames = frames * 2 ^ (51 - frames.log2) * 2 * 2 ^ 5 := by
    rw [aligned, Nat.mul_assoc, Nat.mul_assoc, ← pow_succ', ← pow_add]
    exact congrArg (frames * 2 ^ ·) (by omega)
  have hunits : frames * unitsPerOne =
      frames * 2 ^ (51 - frames.log2) * 2 * 2 ^ (k + frames.log2 - 5 + 6) := by
    rw [hone, Nat.mul_assoc, Nat.mul_assoc, ← pow_succ', ← pow_add]
    exact congrArg (frames * 2 ^ ·) (by omega)
  exact ⟨_, _, hunits, haligned, by omega, by omega, Nat.mul_mod_left _ 2⟩

/-- The units of the seconds of a number of frames. -/
def secondsUnits (rate frames : Nat) : Nat :=
  unitsAt (nearestRank (frames * unitsPerOne * unitsPerOne) (rate * unitsPerOne))

/-- The units of the product of these seconds and the rate. -/
def recountedUnits (rate frames : Nat) : Nat :=
  unitsAt (nearestRank (secondsUnits rate frames * (rate * unitsPerOne)) unitsPerOne)

namespace HasMantissa

variable {mantissa exponent : Nat}

/-- The mantissa of the seconds, if the quotient has fifty-three bits before its point. -/
lemma secondsUnits_of_le (h : HasMantissa frames mantissa exponent) (hrate : 0 < rate)
    (hlow : rate * 2 ^ 52 ≤ aligned frames) (hhigh : aligned frames < rate * 2 ^ 53) :
    secondsUnits rate frames = roundHalfEven (aligned frames) rate * 2 ^ (exponent + 1) := by
  have hunits : frames * unitsPerOne = aligned frames * 2 ^ (exponent + 1) := by
    rw [h.units_eq, h.aligned_eq]
    ring
  rw [secondsUnits, hunits]
  exact unitsAt_nearestRank_mul hrate (by decide) hlow hhigh (exponent + 1)

/-- The mantissa of the seconds, if the quotient has a bit less. -/
lemma secondsUnits_of_lt (h : HasMantissa frames mantissa exponent) (hrate : 0 < rate)
    (hlow : rate * 2 ^ 52 ≤ aligned frames * 2) (hhigh : aligned frames < rate * 2 ^ 52) :
    secondsUnits rate frames = roundHalfEven (aligned frames * 2) rate * 2 ^ exponent := by
  have hunits : frames * unitsPerOne = aligned frames * 2 * 2 ^ exponent := by
    rw [h.units_eq, h.aligned_eq]
    ring
  rw [secondsUnits, hunits]
  exact unitsAt_nearestRank_mul hrate (by decide) hlow (by omega) exponent

/-- As the mantissa is even, the product is rounded back to the frames from half of their last
place. -/
lemma recountedUnits_le_iff (h : HasMantissa frames mantissa exponent) :
    recountedUnits rate frames ≤ frames * unitsPerOne ↔
      2 * (secondsUnits rate frames * rate) ≤ (2 * mantissa + 1) * 2 ^ (exponent + 6) := by
  have hone : 0 < unitsPerOne := by decide
  have hrank : frames * unitsPerOne = unitsAt ((exponent + 6) * binade + mantissa) := by
    rw [h.units_eq, unitsAt_add (fun _ => h.binade_le) h.lt_binades.le]
  have hproduct : 2 * (secondsUnits rate frames * (rate * unitsPerOne)) =
      2 * (secondsUnits rate frames * rate) * unitsPerOne := by ring
  have hbound : (2 * mantissa + 1) * (unitsPerOne * 2 ^ (exponent + 6)) =
      (2 * mantissa + 1) * 2 ^ (exponent + 6) * unitsPerOne := by ring
  rw [hrank, recountedUnits, strictMono_unitsAt.le_iff_le,
    nearestRank_le_iff hone h.binade_le h.lt_binades h.even, hproduct, hbound,
    Nat.mul_le_mul_right_iff hone]

end HasMantissa

/-- The product is beyond the frames just if the seconds are rounded up too far. -/
lemma recountedUnits_le_iff_not_gainsFrame (hne : frames ≠ 0) (hframes : frames < 2 ^ 32)
    (hlow : 32 ≤ rate) (hhigh : rate ≤ 64) :
    recountedUnits rate frames ≤ frames * unitsPerOne ↔ ¬GainsFrame rate frames := by
  obtain ⟨mantissa, exponent, h⟩ := exists_hasMantissa hne hframes
  obtain ⟨hbelow, habove⟩ := aligned_bounds hne hframes
  have hrate : 0 < rate := by omega
  rw [h.recountedUnits_le_iff, GainsFrame]
  by_cases hlarge : rate * 2 ^ 52 ≤ aligned frames
  · rw [h.secondsUnits_of_le hrate hlarge (by omega)]
    generalize roundHalfEven (aligned frames) rate = quotient
    have hproduct : 2 * (quotient * 2 ^ (exponent + 1) * rate) =
        2 * (rate * quotient) * 2 ^ (exponent + 1) := by ring
    have hbound : (2 * mantissa + 1) * 2 ^ (exponent + 6) =
        (2 * (mantissa * 2 ^ 5) + 32) * 2 ^ (exponent + 1) := by ring
    rw [hproduct, hbound, ← h.aligned_eq, Nat.mul_le_mul_right_iff (Nat.two_pow_pos _)]
    omega
  · -- the seconds are off by half of the rate at most, which is half of the last place at most
    have hnear := (roundHalfEven_near (aligned frames * 2) hrate).2
    rw [h.secondsUnits_of_lt hrate (by omega) (Nat.not_le.mp hlarge)]
    generalize roundHalfEven (aligned frames * 2) rate = quotient at hnear
    have hproduct : 2 * (quotient * 2 ^ exponent * rate) =
        2 * (quotient * rate) * 2 ^ exponent := by ring
    have hbound : (2 * mantissa + 1) * 2 ^ (exponent + 6) =
        (4 * (mantissa * 2 ^ 5) + 64) * 2 ^ exponent := by ring
    rw [hproduct, hbound, ← h.aligned_eq, Nat.mul_le_mul_right_iff (Nat.two_pow_pos _)]
    omega

/-- Frames become seconds and frames again with an error of less than one half. -/
lemma near_recounted (hframes : frames < 2 ^ 32) (hlow : 32 ≤ rate) (hhigh : rate ≤ 64)
    (hpos : (ofNat rate).isPositive = true) :
    (ofNat frames / ofNat rate).isFinite = true ∧
      (ofNat frames / ofNat rate * ofNat rate).Near frames (1 / 4) := by
  obtain ⟨hrate, hvalue⟩ := value_ofNat (n := rate) (by omega)
  have hcast : (frames : ℚ) < 2 ^ 32 := by exact_mod_cast hframes
  have hlow : (32 : ℚ) ≤ rate := by exact_mod_cast hlow
  have hhigh : (rate : ℚ) ≤ 64 := by exact_mod_cast hhigh
  have hne : (rate : ℚ) ≠ 0 := by linarith
  obtain ⟨-, hquotient⟩ := near_ofNat_div hframes hpos (by rwa [hvalue])
  rw [hvalue] at hquotient
  refine ⟨hquotient.finite, ?_⟩
  rw [mul_comm_of_isFinite hquotient.finite hrate]
  -- the error in seconds is 2 ^ -27, and sixty-four times that and one more rounding are left
  refine Near.mul_left hrate hquotient ?_ (k := 33) (by norm_num) ?_ ?_
  · rw [hvalue, mul_div_cancel₀ _ hne]
  · rw [hvalue, roundoff, Nat.abs_cast, Nat.abs_cast]
    norm_num
    linarith
  · rw [hvalue, roundoff, roundoff, Nat.abs_cast]
    norm_num
    linarith

/-- The product of the seconds and the rate has the units that two roundings give. -/
lemma units_recounted (hframes : frames < 2 ^ 53) (hrate : rate < 2 ^ 53)
    (hpos : (ofNat rate).isPositive = true)
    (hquotient : (ofNat frames / ofNat rate).isFinite = true)
    (hproduct : (ofNat frames / ofNat rate * ofNat rate).isFinite = true) :
    (ofNat frames / ofNat rate * ofNat rate).units = recountedUnits rate frames := by
  rw [mul_of_isFinite hquotient (value_ofNat hrate).1] at hproduct ⊢
  rw [units_round hproduct, units_ofNat hrate]
  rw [div_of_isPositive (value_ofNat hframes).1 hpos] at hquotient ⊢
  rw [units_round hquotient, units_ofNat hrate, units_ofNat hframes]
  rfl

/-- No frames take no seconds, and none are counted in them. -/
lemma recountedUnits_zero (rate : Nat) : recountedUnits rate 0 = 0 := by
  rw [recountedUnits, secondsUnits, Nat.zero_mul, Nat.zero_mul, nearestRank_zero, unitsAt_zero,
    Nat.zero_mul, nearestRank_zero, unitsAt_zero]

/-- Where there are no frames, none is gained. -/
lemma not_gainsFrame_zero (hlow : 32 ≤ rate) : ¬GainsFrame rate 0 := by
  rintro ⟨hlarge, -⟩
  rw [aligned, Nat.zero_mul] at hlarge
  omega

/-- The next whole number of frames is one more just if the seconds are rounded up too far. -/
lemma toNat64_ceil_recounted (hframes : frames < 2 ^ 32) (hlow : 32 ≤ rate) (hhigh : rate ≤ 64)
    (hpos : (ofNat rate).isPositive = true) :
    (ofNat frames / ofNat rate * ofNat rate).ceil.toNat64 = recounted rate frames := by
  obtain ⟨hfinite, hnear⟩ := near_recounted hframes hlow hhigh hpos
  have hbits : frames < 2 ^ 53 := hframes.trans (by norm_num)
  have hsign : (ofNat frames / ofNat rate * ofNat rate).negative = false := by
    rw [mul_of_isFinite hfinite (isFinite_of_isPositive hpos),
      div_of_isPositive (value_ofNat hbits).1 hpos]
    rfl
  have hvalue : (ofNat frames / ofNat rate * ofNat rate).value ≤ frames ↔
      ¬GainsFrame rate frames := by
    rw [value_of_nonneg hsign, div_le_iff₀ unitsPerOne_pos,
      units_recounted hbits (by omega) hpos hfinite hnear.finite]
    rcases Nat.eq_zero_or_pos frames with rfl | hframesPos
    · rw [recountedUnits_zero]
      exact iff_of_true (by simp) (not_gainsFrame_zero hlow)
    · rw [← recountedUnits_le_iff_not_gainsFrame hframesPos.ne' hframes hlow hhigh]
      exact_mod_cast Iff.rfl
  obtain ⟨hbelow, habove⟩ := abs_le.mp hnear.abs_sub_le
  have hcast : (frames : ℚ) < 2 ^ 32 := by exact_mod_cast hframes
  rw [toNat64_ceil hnear.finite hsign (by linarith), recounted]
  generalize (ofNat frames / ofNat rate * ofNat rate).value = v at hvalue hbelow habove
  split_ifs with hgains
  · have hupper : ⌈v⌉₊ ≤ frames + 1 := Nat.ceil_le.mpr (by push_cast; linarith)
    have hmore : frames < ⌈v⌉₊ := Nat.lt_ceil.mpr (not_le.mp (by rwa [hvalue, not_not]))
    omega
  · have hupper : ⌈v⌉₊ ≤ frames := Nat.ceil_le.mpr (hvalue.mpr hgains)
    have hlower : frames < ⌈v⌉₊ + 1 := by
      have hceil := Nat.le_ceil v
      have : (frames : ℚ) < ⌈v⌉₊ + 1 := by linarith
      exact_mod_cast this
    omega

end Recounted

/-! ### Clocks -/

/-- **A duration of whole frames** has as many frames, or one more: one more just if its seconds are
rounded up too far.  A player with the clock's rate renders so many frames for it. -/
theorem framesIn_secondsSince (clock : FrameClock) (rate : Nat) (hrate : clock.rate = ofNat rate)
    (hlow : 32 ≤ rate) (hhigh : rate ≤ 64) (hframe : clock.frame < 2 ^ 32) :
    clock.framesIn (clock.secondsSince 0) = recounted rate clock.frame ∧
      ∀ p : Player, p.clock.rate = clock.rate →
        p.runSeconds (clock.secondsSince 0) = p.runFrames (recounted rate clock.frame) ∧
        ∀ q, p.runSeconds (clock.secondsSince 0) = (q, none) →
          q.frame = p.frame + recounted rate clock.frame := by
  have hcount : (clock.secondsSince 0 * ofNat rate).ceil.toNat64 = recounted rate clock.frame := by
    rw [secondsSince, hrate, Nat.sub_zero]
    exact toNat64_ceil_recounted hframe hlow hhigh (hrate ▸ clock.rate_pos)
  refine ⟨by rw [framesIn, hrate, hcount], fun p hp => ?_⟩
  have hruns : p.runSeconds (clock.secondsSince 0) = p.runFrames (recounted rate clock.frame) := by
    rw [Player.runSeconds, framesIn, hp, hrate, hcount]
  refine ⟨hruns, fun q hq => ?_⟩
  rw [hruns] at hq
  exact (Player.of_runFrames hq).1

/-- A player that is to render the seconds of twenty-eight frames renders twenty-nine. -/
theorem framesIn_secondsSince_twentyEight :
    ∃ clock p, clock = Region.pal.frameClock.advance 28 ∧ clock.rate = ofNat 50 ∧
      clock.frame < 2 ^ 32 ∧ Player.start Player.spinningTune {} = .ok p ∧
      clock.framesIn (clock.secondsSince 0) = 29 ∧
      p.runSeconds (clock.secondsSince 0) = p.runFrames 29 := by
  have hstarts : (Player.start Player.spinningTune {}).toOption.map
      (fun p => decide (p.clock.rate = ofNat 50)) = some true := by
    decide +kernel
  have hgains : recounted 50 (Region.pal.frameClock.advance 28).frame = 29 := by decide +kernel
  cases hstart : Player.start Player.spinningTune {} with
  | error e =>
    rw [hstart] at hstarts
    cases hstarts
  | ok p =>
    rw [hstart] at hstarts
    have hrate : p.clock.rate = ofNat 50 := of_decide_eq_true (Option.some.inj hstarts)
    obtain ⟨hframes, hplayers⟩ := framesIn_secondsSince (Region.pal.frameClock.advance 28) 50 rfl
      (by decide) (by decide) (by decide)
    rw [hgains] at hframes hplayers
    exact ⟨_, p, rfl, rfl, by decide, rfl, hframes, (hplayers p hrate).1⟩

/-- At fifty frames a second twenty-eight frames gain one, and at sixty it is thirty-one. -/
theorem gained_frames :
    (Region.pal.frameClock.advance 28).rate = ofNat 50 ∧
      (Region.pal.frameClock.advance 28).frame = 28 ∧
      (Region.pal.frameClock.advance 28).framesIn
        ((Region.pal.frameClock.advance 28).secondsSince 0) = 29 ∧
      (Region.ntsc.frameClock.advance 31).rate = ofNat 60 ∧
      (Region.ntsc.frameClock.advance 31).frame = 31 ∧
      (Region.ntsc.frameClock.advance 31).framesIn
        ((Region.ntsc.frameClock.advance 31).secondsSince 0) = 32 := by
  decide +kernel

end FrameClock

end ChipScore
