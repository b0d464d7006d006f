import Mathlib.Tactic
import ChipScore.Note
import ChipScore.Proofs.Binary64.Order

/-!
# The durations of a note

Stopping a sounding note lets its gate fall and takes its release away.  That is the same as
letting the gate fall and stopping the note in the same frame (`stoppedAt_releasedAt`), because no
time passes in between (`secondsSince_self`) and the release of an envelope is longer than that.
-/

namespace ChipScore

/-- Zero divided by a positive number is zero. -/
lemma Binary64.zero_div {x : Binary64} (h : x.isPositive = true) : zero / x = zero := by
  obtain ⟨hsign, hpos, hfinite⟩ := bounds_of_isPositive h
  -- none of the exceptional quotients is the case, and nothing is left to round
  have hnan : x.isNaN = false := decide_eq_false (by omega)
  have hinfinite : x.isInfinite = false := beq_false_of_ne (by omega)
  have hnonzero : x.isZero = false := beq_false_of_ne (by omega)
  have hzero : zero.isNaN = false ∧ zero.isInfinite = false ∧ zero.negative = false ∧
      zero.units = 0 := by decide
  change div zero x = zero
  simp only [div, hzero, hnan, hinfinite, hnonzero, hsign, Bool.or_false, Bool.false_eq_true,
    if_false, Nat.zero_mul, round, bne_self_eq_false, nearestRank_zero]
  rfl

namespace FrameClock

/-- In the frame itself no time has passed. -/
lemma secondsSince_self (clock : FrameClock) : clock.secondsSince clock.frame = .zero := by
  rw [secondsSince, Nat.sub_self]
  exact Binary64.zero_div clock.rate_pos

end FrameClock

/-- The release of an envelope is longer than no time at all. -/
lemma Envelope.zero_lt_release (attackDecay sustainRelease : UInt8) :
    Binary64.zero.lt (ofRegisters attackDecay sustainRelease).release = true := by
  have hrates : ∀ rate, Binary64.zero.lt (decayReleaseSeconds rate) = true := by
    decide +kernel
  exact hrates _

namespace Note

/-- The gate of a sounding note falls. -/
lemma releasedAt_of_sounding {note : Note} (h : note.state = .sounding) (clock : FrameClock) :
    note.releasedAt clock =
      { note.heldFor (clock.secondsSince note.start) with state := .released clock.frame } := by
  rw [releasedAt, h]

/-- Releasing a note leaves the duration of its release alone. -/
lemma release_releasedAt (note : Note) (clock : FrameClock) :
    (note.releasedAt clock).release = note.release := by
  unfold releasedAt heldFor
  generalize clock.secondsSince note.start = held
  split
  · split_ifs <;> rfl
  · rfl

/-- A sounding note that is stopped is left without a release. -/
lemma stoppedAt_of_sounding {note : Note} (h : note.state = .sounding) (clock : FrameClock) :
    note.stoppedAt clock =
      { note.releasedAt clock with release := .zero, state := .stopped } := by
  rw [stoppedAt, h]

/-- A released note that is stopped keeps the release that it had the time for. -/
lemma stoppedAt_of_released {note : Note} {frame : Nat} (h : note.state = .released frame)
    (clock : FrameClock) :
    note.stoppedAt clock =
      { note with release := note.release.min (clock.secondsSince frame), state := .stopped } := by
  rw [stoppedAt, h]

/-- A sounding note that is stopped is one that is released and stopped in the same frame. -/
lemma stoppedAt_releasedAt {note : Note} (hstate : note.state = .sounding)
    (hrelease : Binary64.zero.lt note.release = true) (clock : FrameClock) :
    (note.releasedAt clock).stoppedAt clock = note.stoppedAt clock := by
  have hmin : note.release.min .zero = .zero := by
    rw [Binary64.min, hrelease, Bool.or_true]
    exact if_pos rfl
  have hreleased : (note.releasedAt clock).state = .released clock.frame := by
    rw [releasedAt_of_sounding hstate]
  rw [stoppedAt_of_released hreleased, stoppedAt_of_sounding hstate, release_releasedAt,
    FrameClock.secondsSince_self, hmin]

end Note

end ChipScore
