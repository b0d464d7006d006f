import Mathlib.Tactic
import ChipScore.Note.Transcriber
import ChipScore.Proofs.Note.Course
import ChipScore.Proofs.Note.Passages
import ChipScore.Proofs.Note.Timings
import ChipScore.Proofs.Word

/-!
# A transcription lists the passages of a voice

A transcriber looks at the registers of a voice frame by frame and remembers little more than its
current note.  `transcription` is the list of notes that it has written down when it is stopped
after the last frame.  `transcription_eq_notesOf_passages` says that these are the notes of the
passages of the voice, one for each and in their order, as `Passage.note` describes them.

The invariant of a run is `Tracks`, which ties the transcriber to the frames seen so far through
`Transcriber.Knows`.  As long as nothing has been heard since the gate rose, stopping the
transcriber would give the notes of the passages before; once something has been heard, its current
note is that of the passage so far.  One more frame keeps this, whether the gate is high on it
(`Tracks.concat_high`) or low (`Tracks.concat_low`).
-/

namespace ChipScore

/-- The clock at a frame. -/
def FrameClock.onFrame (clock : FrameClock) (frame : Nat) : FrameClock :=
  { clock with frame := frame }

/-- The waveform whose bit is the only one set in the upper half of a control register, noise if
there is no such waveform. -/
def Waveform.sole (control : UInt8) : Waveform :=
  match all.filter fun w => control.toNat.testBit (4 + w.index.val) with
  | [w] => w
  | _ => .noise

/-- The changes of pitch along frames that are heard: the frames on which the pitch is another than
on the frame heard before. -/
def pitchChanges (first : Heard) (later : List Heard) : List PitchBend :=
  ((first :: later).zip later).filterMap fun (before, now) =>
    if now.pitch = before.pitch then none else some ⟨now.frame, now.pitch⟩

/-- The note of frames that are heard, with the durations of its envelope.  It has the pitch of
the first frame, and the waveform and the envelope of the last. -/
def nominalNote (first : Heard) (later : List Heard) : Note :=
  let last := (later.getLastD first).registers
  let envelope := Envelope.ofRegisters last.attackDecay last.sustainRelease
  { start := first.frame
    pitch := first.pitch
    waveform := Waveform.sole last.control
    attack := envelope.attack
    decay := envelope.decay
    sustain := .zero
    release := envelope.release
    bends := (pitchChanges first later).toArray
    state := .sounding }

/-- The note of a passage.  It is released on the frame on which the gate has fallen and stopped
on a frame given. -/
def Passage.note (clock : FrameClock) (p : Passage) (stopped : Nat) : Note :=
  ((nominalNote p.first p.later).releasedAt (clock.onFrame p.stop)).stoppedAt
    (clock.onFrame stopped)

/-- The notes of passages, each of which is stopped when the next one is first heard and the last
one on a frame given. -/
def notesOf (clock : FrameClock) (passages : List Passage) (stopped : Nat) : List Note :=
  List.zipWith (Passage.note clock) passages
    (passages.tail.map (fun p => p.first.frame) ++ [stopped])

/-- The transcriber of a voice after frames, the first of which is frame zero. -/
def transcribe (clockHz : Binary64) (clock : FrameClock) (frames : List VoiceRegisters) :
    Transcriber :=
  frames.zipIdx.foldl (fun t (r, i) => t.finishFrame r (clock.onFrame i)) (.new clockHz)

/-- The notes of a voice that is stopped after its last frame. -/
def transcription (clockHz : Binary64) (clock : FrameClock) (frames : List VoiceRegisters) :
    List Note :=
  ((transcribe clockHz clock frames).stop (clock.onFrame frames.length)).notes.toList

/-! ### The note of frames that are heard -/

/-- The waveform of a voice is the sole one that its control register selects. -/
lemma waveform_eq_sole (control : UInt8) :
    Transcriber.waveform control = Waveform.sole control := by
  have hbytes : ∀ control, Transcriber.waveform control = Waveform.sole control :=
    forall_byte_of_forall_lt (by decide +kernel)
  exact hbytes control

/-- One more frame is the next to be compared with the one heard before. -/
lemma zip_concat_tail (first h : Heard) (later : List Heard) :
    (first :: (later ++ [h])).zip (later ++ [h]) =
      (first :: later).zip later ++ [(later.getLastD first, h)] := by
  induction later generalizing first with
  | nil => rfl
  | cons next rest ih =>
    rw [List.cons_append, List.zip_cons_cons, ih, List.zip_cons_cons, List.cons_append,
      List.getLastD_cons]

/-- One more frame changes the pitch if its own is another than that of the frame heard before. -/
lemma pitchChanges_concat (first h : Heard) (later : List Heard) :
    pitchChanges first (later ++ [h]) =
      if h.pitch = (later.getLastD first).pitch then pitchChanges first later
      else pitchChanges first later ++ [⟨h.frame, h.pitch⟩] := by
  rw [pitchChanges, zip_concat_tail, List.filterMap_append, ← pitchChanges]
  split_ifs with hpitch
  · simp only [List.filterMap_cons, if_pos hpitch, List.filterMap_nil, List.append_nil]
  · simp only [List.filterMap_cons, if_neg hpitch, List.filterMap_nil]

/-- The pitch of a note is that of the frame heard last. -/
lemma currentPitch_nominalNote (first : Heard) (later : List Heard) :
    (nominalNote first later).currentPitch = (later.getLastD first).pitch := by
  induction later using List.reverseRecOn with
  | nil => rfl
  | append_singleton later h ih =>
    rw [Note.currentPitch, nominalNote] at ih ⊢
    rw [List.getLastD_concat]
    dsimp only at ih ⊢
    rw [pitchChanges_concat]
    split_ifs with hpitch
    · rw [ih, hpitch]
    · rw [List.back?_toArray, List.getLast?_concat]

/-- A note that opens is the one of the first frame heard. -/
lemma opened_eq_nominalNote (h : Heard) :
    Note.opened h.frame h.pitch (Transcriber.waveform h.registers.control)
        (.ofRegisters h.registers.attackDecay h.registers.sustainRelease) =
      nominalNote h [] := by
  rw [waveform_eq_sole]
  rfl

/-- A note that is brought up to date is the one of all frames heard so far. -/
lemma refreshed_nominalNote (first h : Heard) (later : List Heard) :
    (nominalNote first later).refreshed h.frame h.pitch
        (Transcriber.waveform h.registers.control)
        (.ofRegisters h.registers.attackDecay h.registers.sustainRelease) =
      nominalNote first (later ++ [h]) := by
  rw [Note.refreshed, currentPitch_nominalNote, waveform_eq_sole, nominalNote, nominalNote,
    List.getLastD_concat, pitchChanges_concat]
  split_ifs <;> simp

/-- Releasing and stopping a note on one frame is the same as stopping it there. -/
lemma note_eq_stoppedAt (clock : FrameClock) (p : Passage) :
    p.note clock p.stop = (nominalNote p.first p.later).stoppedAt (clock.onFrame p.stop) := by
  let last := (p.later.getLastD p.first).registers
  have hstate : (nominalNote p.first p.later).state = .sounding := rfl
  have hrelease : (nominalNote p.first p.later).release =
      (Envelope.ofRegisters last.attackDecay last.sustainRelease).release := rfl
  refine Note.stoppedAt_releasedAt hstate ?_ (clock.onFrame p.stop)
  rw [hrelease]
  exact Envelope.zero_lt_release last.attackDecay last.sustainRelease

/-- The note of one more passage comes after the others, the last of which now stops when it is
first heard. -/
lemma notesOf_concat (clock : FrameClock) (passages : List Passage) (p : Passage) (stopped : Nat) :
    notesOf clock (passages ++ [p]) stopped =
      notesOf clock passages p.first.frame ++ [p.note clock stopped] := by
  rw [notesOf, notesOf]
  cases passages with
  | nil => rfl
  | cons head rest =>
    have hlength : (head :: rest).length =
        ((rest.map fun p => p.first.frame) ++ [p.first.frame]).length := by simp
    rw [List.cons_append, List.tail_cons, List.tail_cons, List.map_append, List.map_singleton,
      ← List.cons_append, List.zipWith_append hlength]
    rfl

/-! ### What a transcriber knows -/

namespace Transcriber

/-- What a transcriber knows after some passages and the frames heard since the gate rose. -/
inductive Knows (clock : FrameClock) (passages : List Passage) : List Heard → Transcriber → Prop
  /-- Nothing has been heard.  Whenever the transcriber is stopped, its notes are those of the
  passages. -/
  | silent {t : Transcriber}
      (released : ∀ note, t.current = some note → note.isReleased = true)
      (stopped : ∀ frame,
        (t.stop (clock.onFrame frame)).stopped.toList = notesOf clock passages frame) :
      Knows clock passages [] t
  /-- Something has been heard.  Its note has stopped the passage before. -/
  | sounding {t : Transcriber} {first : Heard} {later : List Heard}
      (current : t.current = some (nominalNote first later))
      (stopped : t.stopped.toList = notesOf clock passages first.frame) :
      Knows clock passages (first :: later) t

variable {clock : FrameClock} {passages : List Passage} {heard : List Heard} {t : Transcriber}

/-- A transcriber without a current note is not changed by stopping it. -/
lemma stop_of_none (h : t.current = none) (clock : FrameClock) : t.stop clock = t := by
  rw [stop, h]

/-- Stopping a transcriber stops its current note. -/
lemma stop_of_some {note : Note} (h : t.current = some note) (clock : FrameClock) :
    t.stop clock =
      { t with stopped := t.stopped.push (note.stoppedAt clock), current := none } := by
  rw [stop, h]

/-- A frame on which the gate is low does nothing if no note is sounding. -/
lemma release_of_silent (h : ∀ note, t.current = some note → note.state ≠ .sounding)
    (clock : FrameClock) : t.release clock = t := by
  rw [release]
  cases hcurrent : t.current with
  | none => rfl
  | some note =>
    dsimp only
    rw [Note.releasedAt_of_ne_sounding (h note hcurrent), ← hcurrent]

/-- A transcriber that is stopped has no note that is not. -/
lemma notes_stop (t : Transcriber) (clock : FrameClock) :
    (t.stop clock).notes = (t.stop clock).stopped := by
  have hcurrent : (t.stop clock).current = none := by
    cases h : t.current with
    | none => rw [stop_of_none h, h]
    | some note => rw [stop_of_some h]
  rw [notes, hcurrent]

/-- The clock of the chip stays what it is. -/
lemma clockHz_finishFrame (t : Transcriber) (r : VoiceRegisters) (clock : FrameClock) :
    (t.finishFrame r clock).clockHz = t.clockHz := by
  unfold finishFrame release sound noteWaveform stop
  split_ifs <;> (repeat' split) <;> rfl

/-- A transcriber that has seen nothing knows of no passage. -/
lemma knows_new (clockHz : Binary64) : Knows clock [] [] (new clockHz) :=
  .silent (fun _ h => absurd h (Option.some_ne_none _).symm) fun _ => rfl

namespace Knows

/-- What has been reported does not matter. -/
lemma noteWaveform (h : Knows clock passages heard t) (control : UInt8) :
    Knows clock passages heard (t.noteWaveform control) := by
  unfold Transcriber.noteWaveform
  split_ifs
  · cases h with
    | silent released stopped =>
      refine .silent released fun frame => ?_
      rw [← stopped frame]
      cases hcurrent : t.current <;> simp only [stop, hcurrent]
    | sounding current stopped => exact .sounding current stopped
  · exact h

/-- A frame that is heard is added to those heard since the gate rose. -/
lemma sound (h : Knows clock passages heard t) (now : Heard) :
    Knows clock passages (heard ++ [now])
      (t.sound (clock.onFrame now.frame) now.pitch (waveform now.registers.control)
        (.ofRegisters now.registers.attackDecay now.registers.sustainRelease)) := by
  cases h with
  | silent released stopped =>
    have hstopped := stopped now.frame
    cases hcurrent : t.current with
    | none =>
      rw [stop_of_none hcurrent] at hstopped
      rw [Transcriber.sound, hcurrent]
      exact .sounding (congrArg some (opened_eq_nominalNote now)) hstopped
    | some note =>
      rw [Transcriber.sound, hcurrent]
      dsimp only
      rw [if_pos (released note hcurrent)]
      exact .sounding (congrArg some (opened_eq_nominalNote now)) hstopped
  | @sounding _ first later current stopped =>
    have hsounding : ¬(nominalNote first later).isReleased = true := Bool.false_ne_true
    rw [Transcriber.sound, current]
    dsimp only
    rw [if_neg hsounding]
    exact .sounding (congrArg some (refreshed_nominalNote first now later)) stopped

/-- If nothing has been heard, a frame on which the gate is low changes nothing. -/
lemma release_silent (h : Knows clock passages [] t) (now : FrameClock) :
    Knows clock passages [] (t.release now) := by
  obtain ⟨released, -⟩ := id h
  have hsilent : ∀ note, t.current = some note → note.state ≠ .sounding :=
    fun note hnote => Note.isReleased_iff.mp (released note hnote)
  rwa [release_of_silent hsilent]

/-- If something has been heard, a frame on which the gate is low ends a passage. -/
lemma release_sounding {first : Heard} {later : List Heard}
    (h : Knows clock passages (first :: later) t) (start stop : Nat) :
    Knows clock (passages ++ [⟨start, stop, first, later⟩]) []
      (t.release (clock.onFrame stop)) := by
  cases h with
  | sounding current stopped =>
    have hrelease : t.release (clock.onFrame stop) =
        { t with current := some ((nominalNote first later).releasedAt (clock.onFrame stop)) } := by
      rw [release, current]
    rw [hrelease]
    refine .silent (fun note hnote => ?_) fun frame => ?_
    · obtain rfl := Option.some.inj hnote
      rw [Note.releasedAt_of_sounding rfl]
      rfl
    · rw [stop_of_some rfl, notesOf_concat, ← stopped, Array.toList_push]
      rfl

/-- The notes of a transcriber that is stopped when nothing has been heard. -/
lemma notes_stop_silent (h : Knows clock passages [] t) (frame : Nat) :
    (t.stop (clock.onFrame frame)).notes.toList = notesOf clock passages frame := by
  cases h with
  | silent released stopped => rw [notes_stop, stopped]

/-- The notes of a transcriber that is stopped when something has been heard. -/
lemma notes_stop_sounding {first : Heard} {later : List Heard}
    (h : Knows clock passages (first :: later) t) (start frame : Nat) :
    (t.stop (clock.onFrame frame)).notes.toList =
      notesOf clock (passages ++ [⟨start, frame, first, later⟩]) frame := by
  cases h with
  | sounding current stopped =>
    rw [notes_stop, stop_of_some current, notesOf_concat,
      note_eq_stoppedAt clock ⟨start, frame, first, later⟩, ← stopped, Array.toList_push]

end Knows

end Transcriber

/-! ### A run of the transcriber -/

/-- A transcriber that has seen frames knows their passages and what has been heard since. -/
def Tracks (clockHz : Binary64) (clock : FrameClock) (frames : List VoiceRegisters)
    (t : Transcriber) : Prop :=
  t.clockHz = clockHz ∧ ∃ passages opening,
    EndedBefore clockHz frames frames.length passages ∧ IsOpening frames opening ∧
      t.Knows clock passages (heardIn clockHz frames opening frames.length)

variable {clockHz : Binary64} {clock : FrameClock} {frames : List VoiceRegisters}
  {t : Transcriber}

/-- A frame on which the gate is high adds to what is heard. -/
lemma Tracks.concat_high {r : VoiceRegisters} (h : Tracks clockHz clock frames t)
    (hgate : r.gate = true) :
    Tracks clockHz clock (frames ++ [r]) (t.finishFrame r (clock.onFrame frames.length)) := by
  obtain ⟨hclock, passages, opening, hended, hopening, hknows⟩ := h
  refine ⟨(t.clockHz_finishFrame r _).trans hclock, passages, opening, ?_,
    hopening.concat_high hgate, ?_⟩
  · rw [List.length_append]
    exact hended.concat_high hgate
  · rw [List.length_append, List.length_singleton, heardIn_concat_length hopening.le_length,
      Transcriber.finishFrame, if_pos hgate, hclock]
    cases hpitch : Pitch.nearest? r.frequency clockHz with
    | none =>
      rw [Option.map_none, Option.toList_none, List.append_nil]
      exact hknows
    | some pitch => exact (hknows.noteWaveform r.control).sound ⟨frames.length, pitch, r⟩

/-- A frame on which the gate is low ends the passage, if there is one. -/
lemma Tracks.concat_low {r : VoiceRegisters} (h : Tracks clockHz clock frames t)
    (hgate : r.gate = false) :
    Tracks clockHz clock (frames ++ [r]) (t.finishFrame r (clock.onFrame frames.length)) := by
  obtain ⟨hclock, passages, opening, hended, hopening, hknows⟩ := h
  have hlength : (frames ++ [r]).length = frames.length + 1 := by
    rw [List.length_append, List.length_singleton]
  have hfinish : t.finishFrame r (clock.onFrame frames.length) =
      t.release (clock.onFrame frames.length) := by
    rw [Transcriber.finishFrame, hgate]
    rfl
  refine ⟨(t.clockHz_finishFrame r _).trans hclock, ?_⟩
  rw [hlength, hfinish]
  cases hheard : heardIn clockHz frames opening frames.length with
  | nil =>
    rw [hheard] at hknows
    refine ⟨passages, frames.length + 1, (hended.close_silent hopening hheard).concat_low hgate,
      isOpening_concat_low hgate, ?_⟩
    rw [heardIn_self]
    exact hknows.release_silent _
  | cons first later =>
    rw [hheard] at hknows
    refine ⟨passages ++ [⟨opening, frames.length, first, later⟩], frames.length + 1,
      (hended.close hopening hheard).concat_low hgate, isOpening_concat_low hgate, ?_⟩
    rw [heardIn_self]
    exact hknows.release_sounding opening frames.length

/-- A transcriber tracks the frames that it has seen. -/
lemma tracks_transcribe (clockHz : Binary64) (clock : FrameClock) (frames : List VoiceRegisters) :
    Tracks clockHz clock frames (transcribe clockHz clock frames) := by
  induction frames using List.reverseRecOn with
  | nil => exact ⟨rfl, [], 0, .nil, isOpening_nil, Transcriber.knows_new clockHz⟩
  | append_singleton frames r ih =>
    have hstep : transcribe clockHz clock (frames ++ [r]) =
        (transcribe clockHz clock frames).finishFrame r (clock.onFrame frames.length) := by
      rw [transcribe, List.zipIdx_append, List.foldl_append, Nat.zero_add]
      rfl
    rw [hstep]
    cases hgate : r.gate with
    | true => exact ih.concat_high hgate
    | false => exact ih.concat_low hgate

/-- **A transcription lists the passages of a voice.**  Whatever the registers of a voice are, frame
by frame, the notes that its transcriber has written down when it is stopped after the last frame
are those of its passages, one for each and in their order.  Each note is released when the gate has
fallen, and it is stopped when the next passage is first heard, the last one after the last
frame. -/
theorem transcription_eq_notesOf_passages (clockHz : Binary64) (clock : FrameClock)
    (frames : List VoiceRegisters) :
    ∃ passages, Passages clockHz frames passages ∧
      transcription clockHz clock frames = notesOf clock passages frames.length := by
  obtain ⟨-, passages, opening, hended, hopening, hknows⟩ :=
    tracks_transcribe clockHz clock frames
  cases hheard : heardIn clockHz frames opening frames.length with
  | nil =>
    rw [hheard] at hknows
    exact ⟨passages, (hended.close_silent hopening hheard).toPassages,
      hknows.notes_stop_silent frames.length⟩
  | cons first later =>
    rw [hheard] at hknows
    refine ⟨passages ++ [⟨opening, frames.length, first, later⟩],
      (hended.close hopening hheard).toPassages, ?_⟩
    exact hknows.notes_stop_sounding opening frames.length

end ChipScore
