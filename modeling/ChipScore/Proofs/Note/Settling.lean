import Mathlib.Tactic
import ChipScore.Proofs.Note.Course
import ChipScore.Proofs.Note.Transcription

/-!
# Looking at the same registers again

A transcriber may open a note when it looks at a voice's registers, or bring one up to date, release
one, or stop one and open the next, and it may report a waveform that it does not know.  Whatever it
has done, it is `Settled` afterwards: it has no sounding note if the gate is low, and if the gate is
high and a pitch sounds, its current note `Shows` what is to be seen and the waveform has been
reported.

A settled transcriber does nothing and reports nothing when it looks at these registers again, at
whatever frame (`Settled.finishFrame_eq`, `Settled.frameEvents_eq`).
-/

namespace ChipScore

namespace Note

/-- A sounding note that is up to date with what is to be seen. -/
structure Shows (note : Note) (pitch : Int) (waveform : Waveform) (envelope : Envelope) : Prop where
  /-- The gate is still high. -/
  sounding : note.state = .sounding
  /-- The pitch is the one seen. -/
  pitch : note.currentPitch = pitch
  /-- The waveform is the one seen. -/
  waveform : note.waveform = waveform
  /-- The durations are those of the envelope seen. -/
  envelope : note.attack = envelope.attack ∧ note.decay = envelope.decay ∧
    note.release = envelope.release

variable {note : Note} {pitch : Int} {waveform : Waveform} {envelope : Envelope}

/-- A new note is up to date with what it was opened for. -/
lemma shows_opened (frame : Nat) (pitch : Int) (waveform : Waveform) (envelope : Envelope) :
    (opened frame pitch waveform envelope).Shows pitch waveform envelope :=
  ⟨rfl, rfl, rfl, rfl, rfl, rfl⟩

/-- A sounding note that is brought up to date is up to date. -/
lemma shows_refreshed (hstate : note.state = .sounding) (frame : Nat) (pitch : Int)
    (waveform : Waveform) (envelope : Envelope) :
    (note.refreshed frame pitch waveform envelope).Shows pitch waveform envelope :=
  ⟨hstate, currentPitch_refreshed note frame pitch waveform envelope, rfl, rfl, rfl, rfl⟩

/-- A note that is up to date does not change when it is brought up to date. -/
lemma Shows.refreshed_eq (h : note.Shows pitch waveform envelope) (frame : Nat) :
    note.refreshed frame pitch waveform envelope = note := by
  obtain ⟨hattack, hdecay, hrelease⟩ := h.envelope
  rw [refreshed, if_pos h.pitch.symm, ← h.waveform, ← hattack, ← hdecay, ← hrelease]

/-- A note that is released is not sounding any more. -/
lemma state_releasedAt_ne (note : Note) (clock : FrameClock) :
    (note.releasedAt clock).state ≠ .sounding := by
  by_cases hstate : note.state = .sounding
  · rw [releasedAt_of_sounding hstate]
    exact fun hsounding => NoteState.noConfusion hsounding
  · rw [releasedAt_of_ne_sounding hstate]
    exact hstate

end Note

namespace Transcriber

/-- A transcriber to which the registers of a voice are no news. -/
structure Settled (t : Transcriber) (r : VoiceRegisters) : Prop where
  /-- If the gate is low, no note is sounding. -/
  silent : r.gate = false → ∀ note, t.current = some note → note.state ≠ .sounding
  /-- If the gate is high and a pitch sounds, the waveform is known or has been reported. -/
  reported : r.gate = true → ∀ pitch, Pitch.nearest? r.frequency t.clockHz = some pitch →
    t.isNewUnknown r.control = false
  /-- Then the current note is up to date. -/
  current : r.gate = true → ∀ pitch, Pitch.nearest? r.frequency t.clockHz = some pitch →
    ∃ note, t.current = some note ∧ note.Shows pitch (Transcriber.waveform r.control)
      (.ofRegisters r.attackDecay r.sustainRelease)

variable {t : Transcriber} {r : VoiceRegisters}

/-! ### Looking once -/

/-- What is reported is not reported again. -/
lemma isNewUnknown_noteWaveform (t : Transcriber) (control : UInt8) :
    (t.noteWaveform control).isNewUnknown control = false := by
  unfold noteWaveform
  split_ifs with hnew
  · simp [isNewUnknown]
  · exact Bool.eq_false_of_not_eq_true hnew

/-- Only the notes change when a pitch sounds. -/
lemma isNewUnknown_sound (t : Transcriber) (clock : FrameClock) (pitch : Int) (waveform : Waveform)
    (envelope : Envelope) (control : UInt8) :
    (t.sound clock pitch waveform envelope).isNewUnknown control = t.isNewUnknown control := by
  unfold sound stop
  cases t.current with
  | none => rfl
  | some note =>
    dsimp only
    split_ifs <;> rfl

/-- When a pitch sounds, the current note is up to date with it, or a new one is. -/
lemma exists_shows_sound (t : Transcriber) (clock : FrameClock) (pitch : Int) (waveform : Waveform)
    (envelope : Envelope) :
    ∃ note, (t.sound clock pitch waveform envelope).current = some note ∧
      note.Shows pitch waveform envelope := by
  rw [sound]
  cases t.current with
  | none => exact ⟨_, rfl, Note.shows_opened clock.frame pitch waveform envelope⟩
  | some note =>
    dsimp only
    split_ifs with hreleased
    · exact ⟨_, rfl, Note.shows_opened clock.frame pitch waveform envelope⟩
    · have hstate : note.state = .sounding := by
        by_contra hstate
        exact hreleased (Note.isReleased_iff.mpr hstate)
      exact ⟨_, rfl, Note.shows_refreshed hstate clock.frame pitch waveform envelope⟩

/-- A frame on which the gate is low leaves no sounding note. -/
lemma state_ne_of_release {note : Note} {clock : FrameClock}
    (h : (t.release clock).current = some note) : note.state ≠ .sounding := by
  rw [release] at h
  cases hcurrent : t.current with
  | none =>
    rw [hcurrent] at h
    exact absurd (hcurrent.symm.trans h) (Option.some_ne_none note).symm
  | some before =>
    rw [hcurrent] at h
    rw [← Option.some.inj h]
    exact before.state_releasedAt_ne clock

/-- **A transcriber that has looked is settled.** -/
lemma settled_finishFrame (t : Transcriber) (r : VoiceRegisters) (clock : FrameClock) :
    (t.finishFrame r clock).Settled r := by
  have hclock := t.clockHz_finishFrame r clock
  cases hgate : r.gate with
  | false =>
    have hfinish : t.finishFrame r clock = t.release clock := by
      rw [finishFrame, hgate]
      rfl
    refine ⟨fun _ note hnote => state_ne_of_release (hfinish ▸ hnote), ?_, ?_⟩
    · exact fun hhigh => absurd (hgate.symm.trans hhigh) Bool.false_ne_true
    · exact fun hhigh => absurd (hgate.symm.trans hhigh) Bool.false_ne_true
  | true =>
    have hsounds {pitch : Int}
        (hpitch : Pitch.nearest? r.frequency (t.finishFrame r clock).clockHz = some pitch) :
        t.finishFrame r clock =
          (t.noteWaveform r.control).sound clock pitch (Transcriber.waveform r.control)
            (.ofRegisters r.attackDecay r.sustainRelease) := by
      rw [hclock] at hpitch
      rw [finishFrame, if_pos hgate, hpitch]
    refine ⟨fun hlow => absurd (hlow.symm.trans hgate) Bool.false_ne_true, ?_, ?_⟩
    · intro _ pitch hpitch
      rw [hsounds hpitch, isNewUnknown_sound]
      exact t.isNewUnknown_noteWaveform r.control
    · intro _ pitch hpitch
      rw [hsounds hpitch]
      exact exists_shows_sound _ clock pitch _ _

/-! ### Looking again -/

namespace Settled

/-- A settled transcriber does nothing. -/
lemma finishFrame_eq (h : t.Settled r) (clock : FrameClock) : t.finishFrame r clock = t := by
  rw [finishFrame]
  cases hgate : r.gate with
  | false => exact release_of_silent (h.silent hgate) clock
  | true =>
    cases hpitch : Pitch.nearest? r.frequency t.clockHz with
    | none => rfl
    | some pitch =>
      obtain ⟨note, hcurrent, hshows⟩ := h.current hgate pitch hpitch
      have hknown : t.noteWaveform r.control = t := by
        rw [noteWaveform, h.reported hgate pitch hpitch]
        rfl
      have hsounding : ¬note.isReleased = true := fun hreleased =>
        Note.isReleased_iff.mp hreleased hshows.sounding
      change (t.noteWaveform r.control).sound clock pitch _ _ = t
      rw [hknown, sound, hcurrent]
      dsimp only
      rw [if_neg hsounding, hshows.refreshed_eq, ← hcurrent]

/-- A settled transcriber reports nothing. -/
lemma frameEvents_eq (h : t.Settled r) (clock : FrameClock) : t.frameEvents r clock = [] := by
  unfold frameEvents
  cases hgate : r.gate with
  | false =>
    cases hcurrent : t.current with
    | none => rfl
    | some note =>
      have hreleased := Note.isReleased_iff.mpr (h.silent hgate note hcurrent)
      simp [hreleased]
  | true =>
    cases hpitch : Pitch.nearest? r.frequency t.clockHz with
    | none => rfl
    | some pitch =>
      obtain ⟨note, hcurrent, hshows⟩ := h.current hgate pitch hpitch
      simp [hcurrent, h.reported hgate pitch hpitch, Note.isReleased, hshows.sounding]

end Settled

/-- **Looking at the same registers again changes nothing.**  Whatever a transcriber has been
through, once it has looked at the registers of its voice, looking at them again, on the same frame
or on another, leaves all its notes and all that it has reported as they are, and reports
nothing. -/
theorem finishFrame_idempotent (t : Transcriber) (r : VoiceRegisters) (clock again : FrameClock) :
    (t.finishFrame r clock).finishFrame r again = t.finishFrame r clock ∧
      (t.finishFrame r clock).frameEvents r again = [] := by
  have hsettled := t.settled_finishFrame r clock
  exact ⟨hsettled.finishFrame_eq again, hsettled.frameEvents_eq again⟩

end Transcriber

end ChipScore
