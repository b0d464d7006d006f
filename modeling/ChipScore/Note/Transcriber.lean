import ChipScore.Log
import ChipScore.Note
import ChipScore.Sound.Pitch
import ChipScore.Sound.Registers
import ChipScore.Text.Hex

/-!
# Transcribing a voice

A transcriber looks at a voice's registers once in every frame and writes down the notes it hears.
At most one note, the current one, is not yet stopped.  A gate that is high while the frequency is
zero opens nothing and changes nothing.
-/

namespace ChipScore

/-- What a transcriber reports. -/
inductive TranscriberEvent
  /-- The gate of the current note fell. -/
  | released (frame : Nat)
  /-- A note opened. -/
  | opened (pitch : Int) (waveform : Waveform) (frame : Nat)
  /-- A control register selects no waveform. -/
  | unknownWaveform (control : UInt8)
  deriving DecidableEq

/-- The log record of an event. -/
def TranscriberEvent.record : TranscriberEvent → Log.Record
  | .released frame => ⟨.debug, "note released at frame " ++ toString frame⟩
  | .opened pitch waveform frame =>
    ⟨.debug, "note " ++ toString pitch ++ " (" ++ waveform.title ++ ") opened at frame "
      ++ toString frame⟩
  | .unknownWaveform control =>
    ⟨.warn, "unknown waveform in control register 0x" ++ Hex.byte control ++ ", using noise"⟩

/-- The notes of one voice. -/
structure Transcriber where
  /-- The clock of the chip, in hertz. -/
  clockHz : Binary64
  /-- The notes that are over, oldest first. -/
  stopped : Array Note
  /-- The note that is not yet over. -/
  current : Option Note
  /-- The waveform selectors that have been reported as unknown. -/
  reported : List Nat
  deriving Inhabited

namespace Transcriber

/-- The transcriber of a voice that has played nothing. -/
def new (clockHz : Binary64) : Transcriber where
  clockHz := clockHz
  stopped := #[]
  current := none
  reported := []

/-- All notes, oldest first. -/
def notes (t : Transcriber) : Array Note :=
  match t.current with
  | some note => t.stopped.push note
  | none => t.stopped

/-- The number of notes. -/
def count (t : Transcriber) : Nat :=
  t.stopped.size + (if t.current.isSome then 1 else 0)

/-- The newest note. -/
def last? (t : Transcriber) : Option Note :=
  match t.current with
  | some note => some note
  | none => t.stopped.back?

/-- Stops the current note. -/
def stop (t : Transcriber) (clock : FrameClock) : Transcriber :=
  match t.current with
  | some note => { t with stopped := t.stopped.push (note.stoppedAt clock), current := none }
  | none => t

/-- The waveform that a control register is taken to select. -/
def waveform (control : UInt8) : Waveform :=
  (Waveform.ofControl? control).getD .noise

/-- Whether a control register selects no waveform, for the first time with these bits. -/
def isNewUnknown (t : Transcriber) (control : UInt8) : Bool :=
  (Waveform.ofControl? control).isNone && !t.reported.contains (Waveform.selector control)

/-- Remembers that a control register has been reported. -/
def noteWaveform (t : Transcriber) (control : UInt8) : Transcriber :=
  if t.isNewUnknown control then
    { t with reported := Waveform.selector control :: t.reported }
  else
    t

/-- The transcriber after a frame on which the gate is low. -/
def release (t : Transcriber) (clock : FrameClock) : Transcriber :=
  match t.current with
  | some note => { t with current := some (note.releasedAt clock) }
  | none => t

/-- The transcriber after a frame on which the gate is high and a pitch sounds.  A note whose gate
has fallen gives way to a new one. -/
def sound (t : Transcriber) (clock : FrameClock) (pitch : Int) (waveform : Waveform)
    (envelope : Envelope) : Transcriber :=
  match t.current with
  | some note =>
    if note.isReleased then
      { t.stop clock with current := some (.opened clock.frame pitch waveform envelope) }
    else
      { t with current := some (note.refreshed clock.frame pitch waveform envelope) }
  | none => { t with current := some (.opened clock.frame pitch waveform envelope) }

/-- The transcriber after it has looked at a voice's registers at the end of a frame. -/
def finishFrame (t : Transcriber) (r : VoiceRegisters) (clock : FrameClock) : Transcriber :=
  if r.gate then
    match Pitch.nearest? r.frequency t.clockHz with
    | some pitch =>
      (t.noteWaveform r.control).sound clock pitch (waveform r.control)
        (.ofRegisters r.attackDecay r.sustainRelease)
    | none => t
  else
    t.release clock

/-- What the transcriber reports when it looks at a voice's registers. -/
def frameEvents (t : Transcriber) (r : VoiceRegisters) (clock : FrameClock) :
    List TranscriberEvent :=
  let holding :=
    match t.current with
    | some note => !note.isReleased
    | none => false
  if r.gate then
    match Pitch.nearest? r.frequency t.clockHz with
    | some pitch =>
      (if t.isNewUnknown r.control then [.unknownWaveform r.control] else []) ++
        (if holding then [] else [.opened pitch (waveform r.control) clock.frame])
    | none => []
  else
    if holding then [.released clock.frame] else []

end Transcriber

end ChipScore
