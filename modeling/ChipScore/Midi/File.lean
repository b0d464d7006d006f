import ChipScore.Midi.Quantity
import ChipScore.Midi.Schedule

/-!
# MIDI files

A file has a header and one track.  In the track every event follows its distance in ticks from
the event before it.  The track opens with a time signature, a key signature and the programs of
twelve channels, one program for each waveform.
-/

namespace ChipScore.Midi

/-- The ticks in a quarter note. -/
def division : Nat :=
  25

/-- The number of tracks that the header declares. -/
def declaredTracks : Nat :=
  3

/-- The number of channels that are given a program. -/
def channelCount : Nat :=
  12

/-- The longest distance between events. -/
def maxDelta : Nat :=
  0xFFFFFFFF

/-- The lowest `width` bytes of a number, most significant first. -/
def bigEndian : Nat → Nat → List UInt8
  | 0, _ => []
  | width + 1, n => bigEndian width (n / 256) ++ [UInt8.ofNat (n % 256)]

/-- The events at the start of a track. -/
def preamble : List Event :=
  [.timeSignature 4 2 24 8, .keySignature 0 true] ++
    (List.range channelCount).map fun channel =>
      .programChange channel (UInt8.ofNat (channel % 4 + 1))

/-- The bytes of an event at a distance from the one before it. -/
def deltaEvent (delta : Nat) (event : Event) : Except EventError (List UInt8) :=
  event.bytes.map fun bytes => Quantity.encode (min delta maxDelta) ++ bytes

/-- The bytes of events, the first of which follows an event on a given tick. -/
def eventBytes (current : Nat) : List TimedEvent → Except EventError (List UInt8)
  | [] => .ok []
  | timed :: rest => do
    let first ← deltaEvent (timed.tick - current) timed.event
    let others ← eventBytes timed.tick rest
    return first ++ others

/-- The bytes of a track. -/
def trackBytes (rate : Binary64) (voices : List (List Note)) :
    Except EventError (List UInt8) := do
  let opening ← eventBytes 0 (preamble.map fun event => ⟨0, event⟩)
  let body ← eventBytes 0 (events rate voices)
  let closing ← deltaEvent 0 .endOfTrack
  return opening ++ body ++ closing

/-- A chunk: its tag, the length of its content, and its content. -/
def chunk (tag : String) (content : List UInt8) : List UInt8 :=
  tag.toUTF8.toList ++ bigEndian 4 content.length ++ content

/-- The bytes of a file. -/
def fileBytes (rate : Binary64) (voices : List (List Note)) : Except EventError (List UInt8) :=
  (trackBytes rate voices).map fun track =>
    chunk "MThd" (bigEndian 2 1 ++ bigEndian 2 declaredTracks ++ bigEndian 2 division) ++
      chunk "MTrk" track

end ChipScore.Midi
