import Mathlib.Tactic
import ChipScore.Player.Config
import ChipScore.Proofs.Binary64.Value
import ChipScore.Proofs.Note.Lifecycle

/-!
# The signs of a note's durations

While a note is sounding it carries the nominal durations of an envelope (`Note.IsNominal`).
Releasing it cuts them to the time for which it was held.  That time is compared with the rounded
sum of attack and decay, but what is left of it is found by subtracting one after the other.  A note
that is held for exactly the rounded sum is left with what these two subtractions leave of the sum,
and for some envelopes this is a little less than nothing.

Nothing else goes wrong (`Listening.measured_run`).  Attack, decay and release are never negative.
If a note is held for more than the rounded sum, it is held for more than the exact sum, so the
sustain is not negative either (`Binary64.zero_le_sub_sub`).  And what is left of the sum itself
differs from zero by the errors of three roundings (`Note.IsNominal.near_rest`).
-/

namespace ChipScore

/-! ### Envelopes -/

namespace Envelope

/-- An attack takes some time, and no more than eight seconds. -/
lemma attackSeconds_bounds (rate : Fin 16) :
    (attackSeconds rate).isPositive = true ∧ |(attackSeconds rate).value| ≤ 8 := by
  have hunits : ∀ rate, (attackSeconds rate).isPositive = true ∧
      (attackSeconds rate).units ≤ 8 * Binary64.unitsPerOne := by
    decide +kernel
  refine ⟨(hunits rate).1, ?_⟩
  rw [Binary64.abs_value, div_le_iff₀ Binary64.unitsPerOne_pos]
  exact_mod_cast (hunits rate).2

/-- A decay or a release takes some time, and no more than twenty-four seconds. -/
lemma decayReleaseSeconds_bounds (rate : Fin 16) :
    (decayReleaseSeconds rate).isPositive = true ∧ |(decayReleaseSeconds rate).value| ≤ 24 := by
  have hunits : ∀ rate, (decayReleaseSeconds rate).isPositive = true ∧
      (decayReleaseSeconds rate).units ≤ 24 * Binary64.unitsPerOne := by
    decide +kernel
  refine ⟨(hunits rate).1, ?_⟩
  rw [Binary64.abs_value, div_le_iff₀ Binary64.unitsPerOne_pos]
  exact_mod_cast (hunits rate).2

end Envelope

namespace Note

/-- A note with the durations of an envelope. -/
structure IsNominal (note : Note) : Prop where
  /-- The attack takes some time. -/
  attack_pos : note.attack.isPositive = true
  /-- It is not too long. -/
  attack_le : |note.attack.value| ≤ 8
  /-- The decay takes some time. -/
  decay_pos : note.decay.isPositive = true
  /-- It is not too long. -/
  decay_le : |note.decay.value| ≤ 24
  /-- The release takes some time. -/
  release_pos : note.release.isPositive = true
  /-- It is not known yet how long the note is sustained. -/
  sustain : note.sustain = .zero

variable {note : Note} {held : Binary64} {clock : FrameClock}

/-- The durations that the registers of a voice stand for are nominal. -/
lemma isNominal_of_registers {attackDecay sustainRelease : UInt8}
    (hattack : note.attack = (Envelope.ofRegisters attackDecay sustainRelease).attack)
    (hdecay : note.decay = (Envelope.ofRegisters attackDecay sustainRelease).decay)
    (hrelease : note.release = (Envelope.ofRegisters attackDecay sustainRelease).release)
    (hsustain : note.sustain = .zero) : note.IsNominal where
  attack_pos := hattack ▸ (Envelope.attackSeconds_bounds _).1
  attack_le := hattack ▸ (Envelope.attackSeconds_bounds _).2
  decay_pos := hdecay ▸ (Envelope.decayReleaseSeconds_bounds _).1
  decay_le := hdecay ▸ (Envelope.decayReleaseSeconds_bounds _).2
  release_pos := hrelease ▸ (Envelope.decayReleaseSeconds_bounds _).1
  sustain := hsustain

/-! ### Measured notes -/

/-- A note whose durations have their proper signs. -/
structure Measured (note : Note) : Prop where
  /-- The attack is not negative. -/
  attack_nonneg : Binary64.zero ≤ note.attack
  /-- The decay is not negative. -/
  decay_nonneg : Binary64.zero ≤ note.decay
  /-- The release is not negative. -/
  release_nonneg : Binary64.zero ≤ note.release
  /-- The sustain is not negative, or it is what subtracting attack and decay leaves of their
  rounded sum, and that is next to nothing. -/
  sustain : Binary64.zero ≤ note.sustain ∨
    note.sustain = note.attack + note.decay - note.attack - note.decay ∧
      note.sustain.Near 0 (1 / 2 ^ 47)

lemma zero_le_zero : Binary64.zero ≤ .zero :=
  ⟨rfl, rfl, le_rfl⟩

/-- The durations of an envelope have their proper signs. -/
lemma IsNominal.measured (h : note.IsNominal) : note.Measured where
  attack_nonneg := Binary64.zero_le_of_isPositive h.attack_pos
  decay_nonneg := Binary64.zero_le_of_isPositive h.decay_pos
  release_nonneg := Binary64.zero_le_of_isPositive h.release_pos
  sustain := .inl (h.sustain.symm ▸ zero_le_zero)

/-- The sum of attack and decay is rounded once. -/
lemma IsNominal.near_sum (h : note.IsNominal) :
    (note.attack + note.decay).Near (note.attack.value + note.decay.value)
      (Binary64.roundoff 6) := by
  have hattack := Binary64.near_self (Binary64.isFinite_of_isPositive h.attack_pos)
  have hdecay := Binary64.near_self (Binary64.isFinite_of_isPositive h.decay_pos)
  have hbound : |note.attack.value + note.decay.value| ≤ 8 + 24 :=
    (abs_add_le _ _).trans (add_le_add h.attack_le h.decay_le)
  exact hattack.add hdecay rfl (k := 6) (by norm_num) (by linarith) (by norm_num)

/-- What subtracting attack and decay leaves of their rounded sum is next to nothing. -/
lemma IsNominal.near_rest (h : note.IsNominal) :
    (note.attack + note.decay - note.attack - note.decay).Near 0 (1 / 2 ^ 47) := by
  have hattack := Binary64.near_self (Binary64.isFinite_of_isPositive h.attack_pos)
  have hdecay := Binary64.near_self (Binary64.isFinite_of_isPositive h.decay_pos)
  have hsum := h.near_sum
  have hdecayBound := h.decay_le
  unfold Binary64.roundoff at hsum
  have hfirst : (note.attack + note.decay - note.attack).Near note.decay.value (96 / 2 ^ 54) :=
    hsum.sub hattack (by ring) (k := 5) (by norm_num) (by linarith)
      (by norm_num [Binary64.roundoff])
  exact hfirst.sub hdecay (sub_self _) (k := 0) (by norm_num) (by norm_num)
    (by norm_num [Binary64.roundoff])

/-- Cutting nominal durations to the time for which a note was held gives them proper signs. -/
lemma IsNominal.measured_heldFor (h : note.IsNominal) (hheld : Binary64.zero ≤ held) :
    (note.heldFor held).Measured := by
  have hattack := Binary64.isFinite_of_isPositive h.attack_pos
  have hdecay := Binary64.isFinite_of_isPositive h.decay_pos
  have hmeasured := h.measured
  rw [heldFor]
  -- the gate fell during the attack, during the decay, or after both
  split_ifs with hbefore hwithin
  · exact ⟨hheld, zero_le_zero, hmeasured.release_nonneg, .inl zero_le_zero⟩
  · have hle : note.attack ≤ held :=
      Binary64.le_of_lt_eq_false hheld.2.1 (Binary64.isNaN_of_isFinite hattack)
        (Bool.eq_false_of_not_eq_true hbefore)
    exact ⟨hmeasured.attack_nonneg, Binary64.zero_le_sub hle hattack, hmeasured.release_nonneg,
      .inl zero_le_zero⟩
  · have hle : note.attack + note.decay ≤ held :=
      Binary64.le_of_lt_eq_false hheld.2.1 (Binary64.position_add hattack hdecay).1
        (Bool.eq_false_of_not_eq_true hwithin)
    refine ⟨hmeasured.attack_nonneg, hmeasured.decay_nonneg, hmeasured.release_nonneg, ?_⟩
    -- only at the rounded sum itself can the sustain be below zero
    rcases hle.2.2.eq_or_lt with heq | hlt
    · have hpos : 0 < (note.attack + note.decay).position :=
        (Binary64.position_pos h.attack_pos).trans_le
          (Binary64.le_add hattack hdecay hmeasured.decay_nonneg).2.2
      obtain rfl := Binary64.eq_of_position_eq hpos heq
      exact .inr ⟨rfl, h.near_rest⟩
    · exact .inl (Binary64.zero_le_sub_sub hattack hdecay hheld.2.1 hlt)

/-- No time since a frame is negative. -/
lemma zero_le_secondsSince (clock : FrameClock) (frame : Nat) :
    Binary64.zero ≤ clock.secondsSince frame :=
  Binary64.zero_le_div rfl (Binary64.isNaN_ofRank _ _) clock.rate_pos

/-- The release and the state of a measured note may be written anew. -/
lemma Measured.with_release (h : note.Measured) {release : Binary64}
    (hrelease : Binary64.zero ≤ release) (state : NoteState) :
    { note with release := release, state := state }.Measured :=
  ⟨h.attack_nonneg, h.decay_nonneg, hrelease, h.sustain⟩

/-- A note with the durations of an envelope may be released. -/
lemma IsNominal.measured_releasedAt (h : note.IsNominal) (hstate : note.state = .sounding)
    (clock : FrameClock) : (note.releasedAt clock).Measured := by
  have hheld := h.measured_heldFor (zero_le_secondsSince clock note.start)
  rw [releasedAt_of_sounding hstate]
  exact hheld.with_release hheld.release_nonneg _

/-- A measured note may be stopped, if it has the durations of an envelope as long as it sounds. -/
lemma Measured.stoppedAt (h : note.Measured) (hnominal : note.state = .sounding → note.IsNominal)
    (clock : FrameClock) : (note.stoppedAt clock).Measured := by
  cases hstate : note.state with
  | sounding =>
    have hreleased := (hnominal hstate).measured_releasedAt hstate clock
    rw [stoppedAt_of_sounding hstate]
    exact hreleased.with_release zero_le_zero _
  | released fell =>
    rw [stoppedAt_of_released hstate]
    exact h.with_release
      (Binary64.zero_le_min h.release_nonneg (zero_le_secondsSince clock fell)) _
  | stopped =>
    have hsame : note.stoppedAt clock = note := by rw [Note.stoppedAt, hstate]
    rw [hsame]
    exact h

/-- Every way of writing a note keeps the signs of its durations, and the durations of an envelope
as long as it sounds. -/
lemma respected_measured :
    Respected fun note => note.Measured ∧ (note.state = .sounding → note.IsNominal) where
  opened h := by
    have hnominal : (opened h.frame h.pitch h.waveform h.envelope).IsNominal :=
      isNominal_of_registers rfl rfl rfl rfl
    exact ⟨hnominal.measured, fun _ => hnominal⟩
  refreshed note h hstate hnote := by
    have hnominal : (note.refreshed h.frame h.pitch h.waveform h.envelope).IsNominal :=
      isNominal_of_registers rfl rfl rfl (hnote.2 hstate).sustain
    exact ⟨hnominal.measured, fun _ => hnominal⟩
  releasedAt note clock hstate hnote := by
    refine ⟨(hnote.2 hstate).measured_releasedAt hstate clock, fun hsounding => ?_⟩
    rw [releasedAt_of_sounding hstate] at hsounding
    exact NoteState.noConfusion hsounding
  stoppedAt note clock hnote := by
    refine ⟨hnote.1.stoppedAt hnote.2 clock, fun hsounding => ?_⟩
    rw [state_stoppedAt] at hsounding
    exact NoteState.noConfusion hsounding

end Note

namespace Listening

/-- **Durations have their proper signs**, whatever is done, but for what is left of a rounded
sum. -/
theorem measured_run (clockHz : Binary64) (clock : FrameClock) (actions : List Action) :
    ∀ note ∈ ((begin clockHz clock).run actions).notes, note.Measured := by
  have hnone : ∀ note ∈ (begin clockHz clock).notes,
      note.Measured ∧ (note.state = .sounding → note.IsNominal) :=
    fun _ hnote => absurd hnote List.not_mem_nil
  intro note hnote
  exact (forall_notes_run Note.respected_measured (begin clockHz clock) actions hnone note hnote).1

/-- A gate that is high for 115 frames, with an attack of 0.8 and a decay of 1.5 seconds.  At fifty
frames a second it is high for 2.3 seconds, and this is also their rounded sum. -/
def heldForSum : List Action :=
  (List.replicate 115 [.finishFrame ⟨7424, 0, 0x11, 0xBA, 0⟩, .advance]).flatten ++
    [.finishFrame ⟨7424, 0, 0x10, 0xBA, 0⟩, .advance, .stop]

/-- The note of that gate has the proper signs as well. -/
theorem measured_run_heldForSum :
    ∃ note ∈ ((begin Region.pal.chipClock Region.pal.frameClock).run heldForSum).notes,
      note.Measured := by
  have hsome :
      ∃ note, note ∈ ((begin Region.pal.chipClock Region.pal.frameClock).run heldForSum).notes := by
    refine List.exists_mem_of_ne_nil _ ?_
    decide +kernel
  obtain ⟨note, hnote⟩ := hsome
  exact ⟨note, hnote, measured_run _ _ _ note hnote⟩

/-- But its sustain is below zero. -/
theorem exists_sustain_lt_zero :
    ∃ note ∈ ((begin Region.pal.chipClock Region.pal.frameClock).run heldForSum).notes,
      note.sustain.lt .zero = true := by
  decide +kernel

end Listening

end ChipScore
