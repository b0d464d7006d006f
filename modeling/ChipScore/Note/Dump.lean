import ChipScore.Binary64.Decimal
import ChipScore.Note
import ChipScore.Text.Json

/-!
# The note dump

The notes of all voices as a list of records in order of their start, written as JSON.  Durations
are rounded to milliseconds, except for the sustain.
-/

namespace ChipScore

/-- A note in the dump. -/
structure NoteRecord where
  /-- The number of the voice. -/
  voice : UInt8
  /-- The frame on which the note opened. -/
  start : Nat
  /-- The pitch on that frame. -/
  pitch : Int
  /-- The pitch after all bends. -/
  finalPitch : Int
  /-- The waveform. -/
  waveform : Waveform
  /-- The seconds of the attack. -/
  attack : Binary64
  /-- The seconds of the decay. -/
  decay : Binary64
  /-- The seconds from the end of the decay to the release. -/
  sustain : Binary64
  /-- The seconds of the release. -/
  release : Binary64
  /-- The changes of pitch. -/
  bends : List PitchBend
  deriving DecidableEq, Inhabited

namespace NoteRecord

/-- A duration rounded to milliseconds. -/
def roundMillis (seconds : Binary64) : Binary64 :=
  (seconds * Binary64.ofNat 1000).roundHalfAway / Binary64.ofNat 1000

/-- The record of a note. -/
def ofNote (voice : Nat) (note : Note) : NoteRecord where
  voice := UInt8.ofNat voice
  start := note.start
  pitch := note.pitch
  finalPitch := note.currentPitch
  waveform := note.waveform
  attack := roundMillis note.attack
  decay := roundMillis note.decay
  sustain := note.sustain
  release := roundMillis note.release
  bends := note.bends.toList

/-- The records of all voices in order of their start; notes that start together keep the order
of voices. -/
def ofVoices (voices : List (List Note)) : List NoteRecord :=
  (voices.zipIdx.flatMap fun (notes, voice) => notes.map (ofNote voice)).mergeSort
    fun a b => a.start ≤ b.start

/-- Numbers are positional from `0.00001` up to sixteen digits, and have a fraction. -/
def numberLayout : Decimal.Layout where
  tie := .even
  positional leading := -5 ≤ leading && leading < 16
  wholeSuffix := ".0"
  infinity := "null"
  nan := "null"

/-- A duration in the dump; one that is not finite is missing. -/
def number (x : Binary64) : Json :=
  .literal (if x.isFinite then x.text numberLayout else "null")

/-- A bend in the dump. -/
def bendJson (bend : PitchBend) : Json :=
  .object [("frame", .literal (toString bend.frame)), ("pitch", .literal (toString bend.pitch))]

/-- A record in the dump. -/
def json (r : NoteRecord) : Json :=
  .object [
    ("voice", .literal (toString r.voice.toNat)),
    ("start_frame", .literal (toString r.start)),
    ("pitch", .literal (toString r.pitch)),
    ("final_pitch", .literal (toString r.finalPitch)),
    ("waveform", .plain r.waveform.name),
    ("attack", number r.attack),
    ("decay", number r.decay),
    ("sustain_length", number r.sustain),
    ("release", number r.release),
    ("pitch_bends", .list (r.bends.map bendJson))]

/-- The text of the dump. -/
def dump (voices : List (List Note)) : String :=
  Json.text 0 (.list ((ofVoices voices).map json))

end NoteRecord

end ChipScore
