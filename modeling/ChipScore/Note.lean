import ChipScore.FrameClock
import ChipScore.Sound.Envelope
import ChipScore.Sound.Waveform

/-!
# Notes

A note opens when a voice's gate rises, is released when the gate falls, and stops when the next
note opens or the music ends.  While it is open it carries the nominal durations of its envelope;
releasing it cuts them to the time for which the gate was high, and stopping it cuts the release.
-/

namespace ChipScore

/-- A change of pitch within a note. -/
structure PitchBend where
  /-- The frame of the change. -/
  frame : Nat
  /-- The pitch from there on. -/
  pitch : Int
  deriving DecidableEq, Inhabited

/-- Where a note is in its life. -/
inductive NoteState
  /-- The gate is high. -/
  | sounding
  /-- The gate fell on a frame. -/
  | released (frame : Nat)
  /-- The note is over. -/
  | stopped
  deriving DecidableEq, Inhabited

/-- A note. -/
structure Note where
  /-- The frame on which the note opened. -/
  start : Nat
  /-- The pitch on that frame. -/
  pitch : Int
  /-- The waveform last seen. -/
  waveform : Waveform
  /-- The seconds of the attack. -/
  attack : Binary64
  /-- The seconds of the decay. -/
  decay : Binary64
  /-- The seconds from the end of the decay to the release. -/
  sustain : Binary64
  /-- The seconds of the release. -/
  release : Binary64
  /-- The changes of pitch, in order. -/
  bends : Array PitchBend
  /-- Where the note is in its life. -/
  state : NoteState
  deriving DecidableEq, Inhabited

namespace Note

/-- A new note. -/
def opened (start : Nat) (pitch : Int) (waveform : Waveform) (envelope : Envelope) : Note where
  start := start
  pitch := pitch
  waveform := waveform
  attack := envelope.attack
  decay := envelope.decay
  sustain := .zero
  release := envelope.release
  bends := #[]
  state := .sounding

/-- Whether the gate has fallen. -/
def isReleased (note : Note) : Bool :=
  note.state != .sounding

/-- Whether the note is over. -/
def isStopped (note : Note) : Bool :=
  note.state == .stopped

/-- The pitch after all changes. -/
def currentPitch (note : Note) : Int :=
  match note.bends.back? with
  | some bend => bend.pitch
  | none => note.pitch

/-- The seconds for which the gate is high. -/
def heldSeconds (note : Note) : Binary64 :=
  note.attack + note.decay + note.sustain

/-- Brings a sounding note up to date with its voice: another pitch is a bend, and the waveform
and the durations are those seen last. -/
def refreshed (note : Note) (frame : Nat) (pitch : Int) (waveform : Waveform)
    (envelope : Envelope) : Note :=
  { note with
    waveform := waveform
    attack := envelope.attack
    decay := envelope.decay
    release := envelope.release
    bends := if pitch = note.currentPitch then note.bends else note.bends.push ⟨frame, pitch⟩ }

/-- Cuts the attack, the decay and the sustain of a note to the seconds for which it was held. -/
def heldFor (note : Note) (held : Binary64) : Note :=
  if held.lt note.attack then
    { note with attack := held, decay := .zero, sustain := .zero }
  else if held.lt (note.attack + note.decay) then
    { note with decay := held - note.attack, sustain := .zero }
  else
    { note with sustain := held - note.attack - note.decay }

/-- The note after its gate falls.  Only a sounding note has a gate to fall. -/
def releasedAt (note : Note) (clock : FrameClock) : Note :=
  match note.state with
  | .sounding =>
    { note.heldFor (clock.secondsSince note.start) with state := .released clock.frame }
  | _ => note

/-- The note after it is stopped.  A note that is stopped before its gate falls has no release,
and any other release lasts no longer than the time since the gate fell. -/
def stoppedAt (note : Note) (clock : FrameClock) : Note :=
  match note.state with
  | .sounding => { note.releasedAt clock with release := .zero, state := .stopped }
  | .released frame =>
    { note with release := note.release.min (clock.secondsSince frame), state := .stopped }
  | .stopped => note

end Note

end ChipScore
