import Mathlib.Tactic
import ChipScore.Proofs.Note.Passages
import ChipScore.Proofs.Note.Timings

/-!
# The course of a note

The course of a note is its start, its first pitch and its bends.  Releasing and stopping a note cut
its durations and leave its course alone (`sameCourse_releasedAt`, `sameCourse_stoppedAt`), and only
bringing it up to date adds to it (`currentPitch_refreshed`).

Three things are said about a note here.  It may be `Lawful`: nothing in it is out of order or
still to come.  It may tell of a spell, which is a list of things heard (`Tells`).  And one note may
be what becomes of another in a step (`Continues`).  Each of them comes with a lemma for every way
in which a note is written: opened, brought up to date, released and stopped.
-/

namespace ChipScore

namespace Note

/-- A note as it may stand in a list when the clock shows a frame. -/
structure Lawful (frame : Nat) (note : Note) : Prop where
  /-- It has started. -/
  start_le : note.start ≤ frame
  /-- Its bends are in order of time. -/
  bends_ordered : (note.bends.toList.map PitchBend.frame).Pairwise (· ≤ ·)
  /-- They lie between its start and now. -/
  bends_within : ∀ bend ∈ note.bends.toList, note.start ≤ bend.frame ∧ bend.frame ≤ frame
  /-- Each of them changes the pitch. -/
  bends_change : (note.pitch :: note.bends.toList.map PitchBend.pitch).IsChain (· ≠ ·)
  /-- If its gate has fallen, this was between its start and now. -/
  released_within : ∀ fell, note.state = .released fell → note.start ≤ fell ∧ fell ≤ frame

/-- A note tells of a spell: it starts with the first of what is heard, and its pitch is now that of
the last. -/
structure Tells (spell : List Heard) (note : Note) : Prop where
  /-- It starts with the first of what is heard. -/
  first : ∃ h ∈ spell.head?, note.start = h.frame ∧ note.pitch = h.pitch
  /-- Its pitch is now that of the last. -/
  last : ∃ h ∈ spell.getLast?, note.currentPitch = h.pitch

variable {note other : Note} {frame : Nat} {clock : FrameClock} {spell : List Heard}

/-- Two notes with the same start and the same pitches. -/
structure SameCourse (note other : Note) : Prop where
  /-- They start on one frame. -/
  start : other.start = note.start
  /-- They start with one pitch. -/
  pitch : other.pitch = note.pitch
  /-- They bend alike. -/
  bends : other.bends = note.bends

/-- Cutting a note to the time for which it was held does not touch its course. -/
lemma sameCourse_heldFor (note : Note) (held : Binary64) : note.SameCourse (note.heldFor held) := by
  unfold heldFor
  split_ifs <;> exact ⟨rfl, rfl, rfl⟩

/-- The state of a note has no part in its course. -/
lemma SameCourse.with_state (h : note.SameCourse other) (state : NoteState) :
    note.SameCourse { other with state := state } :=
  ⟨h.start, h.pitch, h.bends⟩

/-- A note counts as released when it is not sounding. -/
lemma isReleased_iff : note.isReleased = true ↔ note.state ≠ .sounding := by
  simp [isReleased]

/-- Only a sounding note can be released. -/
lemma releasedAt_of_ne_sounding (h : note.state ≠ .sounding) (clock : FrameClock) :
    note.releasedAt clock = note := by
  unfold releasedAt
  split
  · contradiction
  · rfl

/-- Releasing a note does not touch its course. -/
lemma sameCourse_releasedAt (note : Note) (clock : FrameClock) :
    note.SameCourse (note.releasedAt clock) := by
  by_cases hstate : note.state = .sounding
  · rw [releasedAt_of_sounding hstate]
    exact (note.sameCourse_heldFor (clock.secondsSince note.start)).with_state _
  · rw [releasedAt_of_ne_sounding hstate]
    exact ⟨rfl, rfl, rfl⟩

/-- Stopping a note does not touch its course. -/
lemma sameCourse_stoppedAt (note : Note) (clock : FrameClock) :
    note.SameCourse (note.stoppedAt clock) := by
  have hreleased := note.sameCourse_releasedAt clock
  unfold stoppedAt
  split
  · exact ⟨hreleased.start, hreleased.pitch, hreleased.bends⟩
  · exact ⟨rfl, rfl, rfl⟩
  · exact ⟨rfl, rfl, rfl⟩

lemma state_stoppedAt (note : Note) (clock : FrameClock) :
    (note.stoppedAt clock).state = .stopped := by
  unfold stoppedAt
  split
  · rfl
  · rfl
  · assumption

/-- The pitch of a note is the last of its pitches. -/
lemma getLast?_pitches (note : Note) :
    (note.pitch :: note.bends.toList.map PitchBend.pitch).getLast? = some note.currentPitch := by
  rw [currentPitch, ← Array.getLast?_toList]
  cases hlast : note.bends.toList.getLast? with
  | none =>
    rw [List.getLast?_eq_none_iff.mp hlast]
    rfl
  | some bend =>
    obtain ⟨earlier, hbends⟩ := List.getLast?_eq_some_iff.mp hlast
    rw [hbends, List.map_append, List.map_singleton, ← List.cons_append, List.getLast?_concat]

/-- A note that is brought up to date has the pitch that is seen. -/
lemma currentPitch_refreshed (note : Note) (frame : Nat) (pitch : Int) (waveform : Waveform)
    (envelope : Envelope) :
    (note.refreshed frame pitch waveform envelope).currentPitch = pitch := by
  rw [refreshed]
  split_ifs with h
  · exact h.symm
  · rw [currentPitch, Array.back?_push]

/-- What a note tells is its course. -/
lemma Tells.of_sameCourse (h : note.Tells spell) (hsame : note.SameCourse other) :
    other.Tells spell where
  first := by
    rw [hsame.start, hsame.pitch]
    exact h.first
  last := by
    rw [currentPitch, hsame.bends, hsame.pitch]
    exact h.last

/-- A new note tells of what is heard first. -/
lemma tells_opened (h : Heard) (waveform : Waveform) (envelope : Envelope) :
    (opened h.frame h.pitch waveform envelope).Tells [h] :=
  ⟨⟨h, rfl, rfl, rfl⟩, ⟨h, rfl, rfl⟩⟩

/-- A note that is brought up to date tells of one thing more. -/
lemma Tells.refreshed (htells : note.Tells spell) (h : Heard) (waveform : Waveform)
    (envelope : Envelope) :
    (note.refreshed h.frame h.pitch waveform envelope).Tells (spell ++ [h]) where
  first := by
    obtain ⟨first, hfirst, hstart⟩ := htells.first
    refine ⟨first, ?_, hstart⟩
    rw [List.head?_append, Option.mem_def.mp hfirst]
    rfl
  last := ⟨h, List.getLast?_concat, currentPitch_refreshed note _ _ _ _⟩

/-- The course and the state of a note decide whether it is lawful. -/
lemma Lawful.of_sameCourse (h : note.Lawful frame) (hsame : note.SameCourse other)
    (hstate : ∀ fell, other.state = .released fell → note.start ≤ fell ∧ fell ≤ frame) :
    other.Lawful frame where
  start_le := hsame.start ▸ h.start_le
  bends_ordered := hsame.bends ▸ h.bends_ordered
  bends_within := by
    rw [hsame.bends, hsame.start]
    exact h.bends_within
  bends_change := by
    rw [hsame.bends, hsame.pitch]
    exact h.bends_change
  released_within := by
    rw [hsame.start]
    exact hstate

/-- The clock may go on. -/
lemma Lawful.mono {later : Nat} (h : note.Lawful frame) (hle : frame ≤ later) :
    note.Lawful later where
  start_le := h.start_le.trans hle
  bends_ordered := h.bends_ordered
  bends_within bend hbend :=
    ⟨(h.bends_within bend hbend).1, (h.bends_within bend hbend).2.trans hle⟩
  bends_change := h.bends_change
  released_within fell hstate :=
    ⟨(h.released_within fell hstate).1, (h.released_within fell hstate).2.trans hle⟩

/-- A new note is lawful. -/
lemma lawful_opened (frame : Nat) (pitch : Int) (waveform : Waveform) (envelope : Envelope) :
    (opened frame pitch waveform envelope).Lawful frame where
  start_le := le_rfl
  bends_ordered := .nil
  bends_within _ hbend := absurd hbend List.not_mem_nil
  bends_change := .singleton pitch
  released_within _ hstate := NoteState.noConfusion hstate

/-- A lawful note may be brought up to date now. -/
lemma Lawful.refreshed (h : note.Lawful frame) (pitch : Int) (waveform : Waveform)
    (envelope : Envelope) : (note.refreshed frame pitch waveform envelope).Lawful frame := by
  by_cases hpitch : pitch = note.currentPitch
  · have hsame : note.SameCourse (note.refreshed frame pitch waveform envelope) :=
      ⟨rfl, rfl, if_pos hpitch⟩
    exact h.of_sameCourse hsame h.released_within
  · have hbends : (note.refreshed frame pitch waveform envelope).bends.toList =
        note.bends.toList ++ [⟨frame, pitch⟩] := by
      rw [Note.refreshed, if_neg hpitch, Array.toList_push]
    refine ⟨h.start_le, ?_, ?_, ?_, h.released_within⟩
    · rw [hbends, List.map_append, List.pairwise_append]
      refine ⟨h.bends_ordered, List.pairwise_singleton _ _, fun a ha b hb => ?_⟩
      obtain ⟨bend, hbend, rfl⟩ := List.mem_map.mp ha
      rw [List.mem_singleton.mp hb]
      exact (h.bends_within bend hbend).2
    · intro bend hbend
      rw [hbends, List.mem_append, List.mem_singleton] at hbend
      rcases hbend with hbend | rfl
      · exact h.bends_within bend hbend
      · exact ⟨h.start_le, le_rfl⟩
    · rw [hbends, List.map_append, ← List.cons_append, List.isChain_append]
      refine ⟨h.bends_change, .singleton _, fun a ha b hb => ?_⟩
      have hlast := note.getLast?_pitches
      obtain rfl : note.currentPitch = a := Option.some.inj (hlast.symm.trans ha)
      obtain rfl : pitch = b := Option.some.inj hb
      exact Ne.symm hpitch

/-- A lawful note may be released now. -/
lemma Lawful.releasedAt (h : note.Lawful clock.frame) :
    (note.releasedAt clock).Lawful clock.frame := by
  refine h.of_sameCourse (note.sameCourse_releasedAt clock) fun fell hfell => ?_
  by_cases hstate : note.state = .sounding
  · rw [releasedAt_of_sounding hstate] at hfell
    obtain rfl := NoteState.released.inj hfell
    exact ⟨h.start_le, le_rfl⟩
  · rw [releasedAt_of_ne_sounding hstate] at hfell
    exact h.released_within fell hfell

/-- A lawful note may be stopped now. -/
lemma Lawful.stoppedAt (h : note.Lawful clock.frame) :
    (note.stoppedAt clock).Lawful clock.frame := by
  refine h.of_sameCourse (note.sameCourse_stoppedAt clock) fun fell hfell => ?_
  rw [state_stoppedAt] at hfell
  exact NoteState.noConfusion hfell

/-- What becomes of a note in one step: it keeps its start, its pitch and the bends that it has, and
if it is over it stays as it is. -/
structure Continues (note later : Note) : Prop where
  /-- It starts where it did. -/
  start : later.start = note.start
  /-- It starts with the pitch that it had. -/
  pitch : later.pitch = note.pitch
  /-- It has the bends that it had, and perhaps more. -/
  bends : note.bends.toList <+: later.bends.toList
  /-- Once it is over nothing of it changes. -/
  stopped : note.state = .stopped → later = note

lemma Continues.refl (note : Note) : note.Continues note :=
  ⟨rfl, rfl, List.prefix_rfl, fun _ => rfl⟩

/-- A note that keeps its course continues. -/
lemma SameCourse.continues (h : note.SameCourse other)
    (hstopped : note.state = .stopped → other = note) : note.Continues other :=
  ⟨h.start, h.pitch, h.bends ▸ List.prefix_rfl, hstopped⟩

/-- A note that is released continues. -/
lemma continues_releasedAt (note : Note) (clock : FrameClock) :
    note.Continues (note.releasedAt clock) :=
  (note.sameCourse_releasedAt clock).continues fun h => by rw [releasedAt, h]

/-- A note that is stopped continues. -/
lemma continues_stoppedAt (note : Note) (clock : FrameClock) :
    note.Continues (note.stoppedAt clock) :=
  (note.sameCourse_stoppedAt clock).continues fun h => by rw [stoppedAt, h]

/-- A sounding note that is brought up to date continues. -/
lemma continues_refreshed (h : note.state = .sounding) (frame : Nat) (pitch : Int)
    (waveform : Waveform) (envelope : Envelope) :
    note.Continues (note.refreshed frame pitch waveform envelope) where
  start := rfl
  pitch := rfl
  bends := by
    rw [refreshed]
    split_ifs
    · exact List.prefix_rfl
    · rw [Array.toList_push]
      exact List.prefix_append _ _
  stopped hstopped := NoteState.noConfusion (h.symm.trans hstopped)

end Note

end ChipScore
