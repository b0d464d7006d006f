import Mathlib.Tactic
import ChipScore.Proofs.Note.Course

/-!
# Clipping the envelope

Releasing and stopping a note compare durations, add and subtract them and take the lesser of two.
`Seconds` collects these operations, and a `Lifetime` is what they work on: the durations of a note
in any kind of seconds.  On double-precision numbers the lifetime of a note goes through what the
note goes through (`Note.releasedAt_eq_withLifetime`, `Note.stoppedAt_eq_withLifetime`).

On rational numbers nothing is rounded, and the cases of the code become one formula: the time for
which the gate was high is dealt out to the attack, the decay and the sustain, in this order, each of
the first two taking what is left but no more than its nominal duration (`Lifetime.heldFor_eq`).
-/

namespace ChipScore

/-- What cutting durations needs of the numbers that measure them. -/
class Seconds (α : Type) where
  /-- No time. -/
  zero : α
  /-- Whether a duration is shorter than another one. -/
  lt : α → α → Bool
  /-- Two durations, one after the other. -/
  add : α → α → α
  /-- What is left of a duration after another one. -/
  sub : α → α → α
  /-- The shorter of two durations. -/
  min : α → α → α
  /-- The seconds that a number of frames take at a frame rate. -/
  ofFrames : Nat → α → α

instance : Seconds Binary64 where
  zero := .zero
  lt := Binary64.lt
  add := (· + ·)
  sub := (· - ·)
  min := Binary64.min
  ofFrames frames rate := Binary64.ofNat frames / rate

instance : Seconds ℚ where
  zero := 0
  lt x y := x < y
  add := (· + ·)
  sub := (· - ·)
  min := min
  ofFrames frames rate := frames / rate

/-- The durations of a note and where it is in its life. -/
structure Lifetime (α : Type) where
  /-- The frame on which the note opened. -/
  start : Nat
  /-- The seconds of the attack. -/
  attack : α
  /-- The seconds of the decay. -/
  decay : α
  /-- The seconds from the end of the decay to the release. -/
  sustain : α
  /-- The seconds of the release. -/
  release : α
  /-- Where the note is in its life. -/
  state : NoteState

namespace Lifetime

variable {α : Type} [Seconds α]

/-- The seconds for which the gate is high. -/
def held (x : Lifetime α) : α :=
  Seconds.add (Seconds.add x.attack x.decay) x.sustain

/-- Cuts the attack, the decay and the sustain to the seconds for which the gate was high. -/
def heldFor (x : Lifetime α) (held : α) : Lifetime α :=
  if Seconds.lt held x.attack then
    { x with attack := held, decay := Seconds.zero, sustain := Seconds.zero }
  else if Seconds.lt held (Seconds.add x.attack x.decay) then
    { x with decay := Seconds.sub held x.attack, sustain := Seconds.zero }
  else
    { x with sustain := Seconds.sub (Seconds.sub held x.attack) x.decay }

/-- The gate falls on a frame. -/
def releasedAt (x : Lifetime α) (frame : Nat) (rate : α) : Lifetime α :=
  match x.state with
  | .sounding =>
    { x.heldFor (Seconds.ofFrames (frame - x.start) rate) with state := .released frame }
  | _ => x

/-- The note is stopped on a frame. -/
def stoppedAt (x : Lifetime α) (frame : Nat) (rate : α) : Lifetime α :=
  match x.state with
  | .sounding => { x.releasedAt frame rate with release := Seconds.zero, state := .stopped }
  | .released fell =>
    { x with
      release := Seconds.min x.release (Seconds.ofFrames (frame - fell) rate)
      state := .stopped }
  | .stopped => x

/-! ### The transitions, state by state -/

/-- A sounding lifetime is cut to the frames since its start when it is released. -/
lemma releasedAt_of_sounding {x : Lifetime α} (h : x.state = .sounding) (frame : Nat) (rate : α) :
    x.releasedAt frame rate =
      { x.heldFor (Seconds.ofFrames (frame - x.start) rate) with state := .released frame } := by
  rw [releasedAt, h]

/-- The gate falls once. -/
lemma releasedAt_of_ne_sounding {x : Lifetime α} (h : x.state ≠ .sounding) (frame : Nat) (rate : α) :
    x.releasedAt frame rate = x := by
  unfold releasedAt
  split
  · exact absurd ‹_› h
  · rfl

/-- Stopping a sounding lifetime releases it and cuts the release to nothing. -/
lemma stoppedAt_of_sounding {x : Lifetime α} (h : x.state = .sounding) (frame : Nat) (rate : α) :
    x.stoppedAt frame rate =
      { x.releasedAt frame rate with release := Seconds.zero, state := .stopped } := by
  rw [stoppedAt, h]

/-- Stopping a released lifetime cuts the release to the frames since the gate fell. -/
lemma stoppedAt_of_released {x : Lifetime α} {fell : Nat} (h : x.state = .released fell)
    (frame : Nat) (rate : α) :
    x.stoppedAt frame rate =
      { x with
        release := Seconds.min x.release (Seconds.ofFrames (frame - fell) rate)
        state := .stopped } := by
  rw [stoppedAt, h]

lemma stoppedAt_of_stopped {x : Lifetime α} (h : x.state = .stopped) (frame : Nat) (rate : α) :
    x.stoppedAt frame rate = x := by
  rw [stoppedAt, h]

lemma state_releasedAt_ne_sounding (x : Lifetime α) (frame : Nat) (rate : α) :
    (x.releasedAt frame rate).state ≠ .sounding := by
  by_cases hstate : x.state = .sounding
  · rw [releasedAt_of_sounding hstate]
    exact NoteState.noConfusion
  · rwa [releasedAt_of_ne_sounding hstate]

lemma state_stoppedAt (x : Lifetime α) (frame : Nat) (rate : α) :
    (x.stoppedAt frame rate).state = .stopped := by
  unfold stoppedAt
  split
  · rfl
  · rfl
  · assumption

end Lifetime

/-! ### The lifetime of a note -/

namespace Note

/-- The durations of a note. -/
def lifetime (note : Note) : Lifetime Binary64 :=
  ⟨note.start, note.attack, note.decay, note.sustain, note.release, note.state⟩

/-- A note with other durations. -/
def withLifetime (note : Note) (x : Lifetime Binary64) : Note :=
  { note with
    start := x.start
    attack := x.attack
    decay := x.decay
    sustain := x.sustain
    release := x.release
    state := x.state }

/-- The seconds that a clock counts are those that the frames take. -/
lemma ofFrames_eq_secondsSince (clock : FrameClock) (frame : Nat) :
    Seconds.ofFrames (clock.frame - frame) clock.rate = clock.secondsSince frame := by
  simp only [Seconds.ofFrames, FrameClock.secondsSince]

/-- A note is cut to the seconds of its gate just as its lifetime is. -/
lemma heldFor_eq_withLifetime (note : Note) (held : Binary64) :
    note.heldFor held = note.withLifetime (note.lifetime.heldFor held) := by
  have hattack : note.lifetime.attack = note.attack := rfl
  have hdecay : note.lifetime.decay = note.decay := rfl
  rw [heldFor, Lifetime.heldFor, hattack, hdecay]
  simp only [Seconds.lt, Seconds.add, Seconds.sub, Seconds.zero]
  split_ifs <;> simp only [withLifetime, lifetime]

/-- The state of a note is that of its lifetime. -/
lemma withLifetime_state (note : Note) (x : Lifetime Binary64) (state : NoteState) :
    { note.withLifetime x with state := state } = note.withLifetime { x with state := state } :=
  rfl

/-- The release and the state of a note are those of its lifetime. -/
lemma withLifetime_release_state (note : Note) (x : Lifetime Binary64) (release : Binary64)
    (state : NoteState) :
    { note.withLifetime x with release := release, state := state } =
      note.withLifetime { x with release := release, state := state } :=
  rfl

/-- Releasing a note is releasing its lifetime. -/
lemma releasedAt_eq_withLifetime (note : Note) (clock : FrameClock) :
    note.releasedAt clock =
      note.withLifetime (note.lifetime.releasedAt clock.frame clock.rate) := by
  by_cases hstate : note.state = .sounding
  · have hlifetime : note.lifetime.state = .sounding := hstate
    have hstart : note.lifetime.start = note.start := rfl
    rw [releasedAt_of_sounding hstate, Lifetime.releasedAt_of_sounding hlifetime, hstart,
      ofFrames_eq_secondsSince, heldFor_eq_withLifetime]
    exact note.withLifetime_state _ _
  · have hlifetime : note.lifetime.state ≠ .sounding := hstate
    rw [releasedAt_of_ne_sounding hstate, Lifetime.releasedAt_of_ne_sounding hlifetime]
    rfl

/-- Stopping a note is stopping its lifetime. -/
lemma stoppedAt_eq_withLifetime (note : Note) (clock : FrameClock) :
    note.stoppedAt clock = note.withLifetime (note.lifetime.stoppedAt clock.frame clock.rate) := by
  cases hstate : note.state with
  | sounding =>
    have hlifetime : note.lifetime.state = .sounding := hstate
    rw [stoppedAt_of_sounding hstate, Lifetime.stoppedAt_of_sounding hlifetime,
      releasedAt_eq_withLifetime]
    exact note.withLifetime_release_state _ _ _
  | released fell =>
    have hlifetime : note.lifetime.state = .released fell := hstate
    have hrelease : note.lifetime.release = note.release := rfl
    rw [stoppedAt_of_released hstate, Lifetime.stoppedAt_of_released hlifetime, hrelease,
      ofFrames_eq_secondsSince]
    exact note.withLifetime_release_state note.lifetime _ _
  | stopped =>
    have hlifetime : note.lifetime.state = .stopped := hstate
    rw [stoppedAt, hstate, Lifetime.stoppedAt_of_stopped hlifetime]
    rfl

end Note

/-! ### The closed form -/

namespace Lifetime

variable {x : Lifetime ℚ}

/-- What the attack takes of the seconds for which the gate was high. -/
def clippedAttack (x : Lifetime ℚ) (held : ℚ) : ℚ :=
  min x.attack held

/-- What the decay takes of the seconds that the attack leaves. -/
def clippedDecay (x : Lifetime ℚ) (held : ℚ) : ℚ :=
  min x.decay (held - x.clippedAttack held)

/-- The attack and the decay together take no more than there is. -/
lemma clipped_le (x : Lifetime ℚ) (held : ℚ) :
    0 ≤ held - x.clippedAttack held - x.clippedDecay held :=
  sub_nonneg.mpr (min_le_right x.decay (held - x.clippedAttack held))

/-- Cutting deals the time out to the attack, the decay and the sustain. -/
lemma heldFor_eq (hdecay : 0 ≤ x.decay) (held : ℚ) :
    x.heldFor held = { x with
      attack := x.clippedAttack held
      decay := x.clippedDecay held
      sustain := held - x.clippedAttack held - x.clippedDecay held } := by
  have hfold : x.heldFor held =
      if held < x.attack then { x with attack := held, decay := 0, sustain := 0 }
      else if held < x.attack + x.decay then { x with decay := held - x.attack, sustain := 0 }
      else { x with sustain := held - x.attack - x.decay } := by
    simp only [heldFor, Seconds.lt, decide_eq_true_eq]
    rfl
  rw [hfold]
  unfold clippedDecay clippedAttack
  split_ifs with hattack hwithin
  -- the gate fell during the attack: nothing is left for the decay
  · rw [min_eq_right hattack.le, sub_self, min_eq_right hdecay, sub_zero]
  -- the gate fell during the decay: nothing is left for the sustain
  · have hrest : held - x.attack ≤ x.decay := by linarith
    rw [min_eq_left (not_lt.mp hattack), min_eq_right hrest, sub_self]
  · have hrest : x.decay ≤ held - x.attack := by linarith
    rw [min_eq_left (not_lt.mp hattack), min_eq_left hrest]

/-- The seconds from a frame to a later one. -/
lemma ofFrames_sub {first last : Nat} (h : first ≤ last) (rate : ℚ) :
    Seconds.ofFrames (last - first) rate = ((last : ℚ) - first) / rate := by
  change ((last - first : Nat) : ℚ) / rate = _
  rw [Nat.cast_sub h]

/-- Released in exact numbers, a sounding lifetime keeps of its gate what attack and decay can take,
and sustains the rest. -/
lemma releasedAt_eq (hstate : x.state = .sounding) (hdecay : 0 ≤ x.decay) {frame : Nat}
    (h : x.start ≤ frame) {held : ℚ} {rate : ℚ} (hheld : held = ((frame : ℚ) - x.start) / rate) :
    x.releasedAt frame rate = { x with
      attack := x.clippedAttack held
      decay := x.clippedDecay held
      sustain := held - x.clippedAttack held - x.clippedDecay held
      state := .released frame } := by
  rw [releasedAt_of_sounding hstate, ofFrames_sub h, ← hheld, heldFor_eq hdecay]

/-- What is dealt out adds up to the time for which the gate was high. -/
lemma held_clipped (x : Lifetime ℚ) (held release : ℚ) (state : NoteState) :
    Lifetime.held { x with
      attack := x.clippedAttack held
      decay := x.clippedDecay held
      sustain := held - x.clippedAttack held - x.clippedDecay held
      release := release
      state := state } = held := by
  change x.clippedAttack held + x.clippedDecay held +
    (held - x.clippedAttack held - x.clippedDecay held) = held
  ring

end Lifetime

/-- **Clipping in closed form.**  Releasing and stopping a note is releasing and stopping its
lifetime in double-precision seconds.  In rational seconds let a note be opened on one frame,
released on a frame `r` that is no earlier, and stopped on a frame `t` no earlier than that, and let
`e` be the time from the opening to the release.  If the decay is not negative, then:

* the attack becomes the lesser of itself and `e`, the decay the lesser of itself and what the attack
  leaves of `e`, the sustain what both leave, and the release the lesser of itself and the time from
  the release to the stop;
* the sustain is not negative, and attack, decay and sustain add up to `e`;
* stopping the open note on the frame `r` gives the same with no release;
* releasing a note again, and releasing or stopping a note that has been stopped, changes nothing,
  on any frame and at any rate. -/
theorem clipping_closed_form :
    (∀ (note : Note) (clock : FrameClock),
      note.releasedAt clock =
          note.withLifetime (note.lifetime.releasedAt clock.frame clock.rate) ∧
        note.stoppedAt clock =
          note.withLifetime (note.lifetime.stoppedAt clock.frame clock.rate) ∧
        note.heldSeconds = note.lifetime.held) ∧
    (∀ (x : Lifetime ℚ) (rate : ℚ) (r t : Nat), x.state = .sounding → 0 ≤ x.decay →
      x.start ≤ r → r ≤ t →
      let e := ((r : ℚ) - x.start) / rate
      let attack := min x.attack e
      let decay := min x.decay (e - attack)
      (x.releasedAt r rate).stoppedAt t rate =
          ⟨x.start, attack, decay, e - attack - decay, min x.release (((t : ℚ) - r) / rate),
            .stopped⟩ ∧
        ((x.releasedAt r rate).stoppedAt t rate).held = e ∧
        x.stoppedAt r rate = ⟨x.start, attack, decay, e - attack - decay, 0, .stopped⟩ ∧
        (x.stoppedAt r rate).held = e ∧
        0 ≤ e - attack - decay) ∧
    (∀ (x : Lifetime ℚ) (frame later : Nat) (rate other : ℚ),
      (x.releasedAt frame rate).releasedAt later other = x.releasedAt frame rate ∧
        (x.stoppedAt frame rate).releasedAt later other = x.stoppedAt frame rate ∧
        (x.stoppedAt frame rate).stoppedAt later other = x.stoppedAt frame rate) := by
  refine ⟨fun note clock => ⟨note.releasedAt_eq_withLifetime clock,
    note.stoppedAt_eq_withLifetime clock, rfl⟩, ?_, fun x frame later rate other => ?_⟩
  · intro x rate r t hstate hdecay hr ht e attack decay
    have hreleased :=
      Lifetime.releasedAt_eq hstate hdecay hr (rfl : e = ((r : ℚ) - x.start) / rate)
    have hstopped : (x.releasedAt r rate).stoppedAt t rate =
        ⟨x.start, attack, decay, e - attack - decay, min x.release (((t : ℚ) - r) / rate),
          .stopped⟩ := by
      rw [hreleased, Lifetime.stoppedAt_of_released rfl, Lifetime.ofFrames_sub ht]
      rfl
    have hopen : x.stoppedAt r rate =
        ⟨x.start, attack, decay, e - attack - decay, 0, .stopped⟩ := by
      rw [Lifetime.stoppedAt_of_sounding hstate, hreleased]
      rfl
    refine ⟨hstopped, ?_, hopen, ?_, x.clipped_le e⟩
    · rw [hstopped]
      exact x.held_clipped e _ _
    · rw [hopen]
      exact x.held_clipped e _ _
  · have hstopped := x.state_stoppedAt frame rate
    refine ⟨Lifetime.releasedAt_of_ne_sounding (x.state_releasedAt_ne_sounding frame rate) _ _,
      Lifetime.releasedAt_of_ne_sounding ?_ _ _, Lifetime.stoppedAt_of_stopped hstopped _ _⟩
    rw [hstopped]
    exact NoteState.noConfusion

/-- A note of half a second's attack and a quarter's decay. -/
def clippedLifetime : Lifetime ℚ :=
  ⟨100, 1 / 2, 1 / 4, 0, 3 / 10, .sounding⟩

/-- At fifty frames a second, thirty frames last into the decay. -/
theorem clipping_closed_form_clippedLifetime :
    (clippedLifetime.releasedAt 130 50).stoppedAt 140 50 =
      ⟨100, 1 / 2, 1 / 10, 0, 1 / 5, .stopped⟩ := by
  have hclipped := (clipping_closed_form.2.1 clippedLifetime 50 130 140 rfl (by decide +kernel)
    (by decide) (by decide)).1
  rw [hclipped]
  norm_num [clippedLifetime]

end ChipScore
