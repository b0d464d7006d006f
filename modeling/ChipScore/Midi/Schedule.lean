import ChipScore.Midi.Event
import ChipScore.Note

/-!
# Scheduling notes

The notes of a voice become key strokes on four channels, one for each waveform.  A note strikes
its key at its start and again at every bend; bends that fall on the tick of the stroke before
them only change its key.  Every stroke lasts for at least one tick and ends where the next one
begins, and no note begins on a channel before the last stroke there has ended.

`schedule` puts the strokes of all voices in order of time.  On one tick keys are let go before
others are struck.  It asks the tune's frame rate two things only, the tick of a frame and the
length of a note, and these two are its `Timing`.
-/

namespace ChipScore.Midi

/-- The ticks in a second. -/
def ticksPerSecond : Nat :=
  50

/-- The tick nearest a frame. -/
def tickOf (rate : Binary64) (frame : Nat) : Nat :=
  (Binary64.ofNat frame * Binary64.ofNat ticksPerSecond / rate).roundHalfAway.toNat64

/-- The frames for which a note is held, at least one. -/
def framesOf (rate : Binary64) (note : Note) : Nat :=
  max (rate * note.heldSeconds).floor.toNat64 1

/-- What a schedule has to know about a tune's frames. -/
structure Timing where
  /-- The tick of a frame. -/
  tick : Nat → Nat
  /-- The frames for which a note is held. -/
  frames : Note → Nat

/-- The timing of a tune at a frame rate. -/
def Timing.ofRate (rate : Binary64) : Timing where
  tick := tickOf rate
  frames := framesOf rate

/-- A key that is to sound from a tick on. -/
structure Segment where
  /-- The tick. -/
  tick : Nat
  /-- The key. -/
  key : Int
  deriving DecidableEq, Inhabited

/-- A key that is struck and let go. -/
structure Stroke where
  /-- The tick of striking it. -/
  struck : Nat
  /-- The tick of letting it go. -/
  ended : Nat
  /-- The key. -/
  key : Int
  deriving DecidableEq, Inhabited

namespace Segment

/-- Joins a segment with those that do not come after it; the last key of them wins. -/
def merge (first : Segment) : List Segment → List Segment
  | [] => [first]
  | next :: rest =>
    if next.tick ≤ first.tick then
      merge ⟨first.tick, next.key⟩ rest
    else
      first :: merge next rest

/-- The strokes of segments, each of which ends where the next one begins. -/
def strokes (endTick : Nat) : List Segment → List Stroke
  | [] => []
  | [last] => [⟨last.tick, max endTick (last.tick + 1), last.key⟩]
  | first :: next :: rest =>
    ⟨first.tick, max next.tick (first.tick + 1), first.key⟩ :: strokes endTick (next :: rest)

end Segment

/-- The frame after the last one of a note. -/
def endFrame (timing : Timing) (note : Note) : Nat :=
  note.start + timing.frames note

/-- The bends within a note. -/
def innerBends (timing : Timing) (note : Note) : List PitchBend :=
  note.bends.toList.filter fun bend =>
    note.start < bend.frame && bend.frame < endFrame timing note

/-- The strokes of a note on a channel that is free from a tick on. -/
def strokesOf (timing : Timing) (free : Nat) (note : Note) : List Stroke :=
  let segment frame key : Segment := ⟨max (timing.tick frame) free, key⟩
  Segment.strokes (timing.tick (endFrame timing note))
    (Segment.merge (segment note.start note.pitch)
      ((innerBends timing note).map fun bend => segment bend.frame bend.pitch))

/-- An event and its tick. -/
structure TimedEvent where
  /-- The tick. -/
  tick : Nat
  /-- The event. -/
  event : Event
  deriving DecidableEq, Inhabited

/-- The two events of a stroke on a channel. -/
def Stroke.events (channel : Nat) (stroke : Stroke) : List TimedEvent :=
  [⟨stroke.struck, .noteOn channel stroke.key⟩, ⟨stroke.ended, .noteOff channel stroke.key⟩]

/-- The tick from which a channel is free, after some strokes on it. -/
def freeAfter (free : Nat) (strokes : List Stroke) : Nat :=
  match strokes.getLast? with
  | some stroke => stroke.ended
  | none => free

/-- The events of a voice's notes, note by note.  The four numbers are the ticks from which the
voice's channels are free. -/
def voiceEvents (timing : Timing) (voice : Nat) (free : Vector Nat 4) :
    List Note → List TimedEvent
  | [] => []
  | note :: rest =>
    let slot := note.waveform.index
    let strokes := strokesOf timing (free.get slot) note
    strokes.flatMap (Stroke.events (voice * 4 + slot.val)) ++
      voiceEvents timing voice (free.set slot (freeAfter (free.get slot) strokes)) rest

/-- The order of events: by tick, and on one tick keys are let go first. -/
def TimedEvent.le (a b : TimedEvent) : Bool :=
  a.tick < b.tick || (a.tick == b.tick && (!a.event.isNoteOn || b.event.isNoteOn))

/-- The events of all voices, before they are put in order. -/
def unorderedEvents (timing : Timing) (voices : List (List Note)) : List TimedEvent :=
  voices.zipIdx.flatMap fun (notes, voice) => voiceEvents timing voice (Vector.replicate 4 0) notes

/-- The events of all voices in order of time; events that are equally early keep the order of
voices and notes. -/
def schedule (timing : Timing) (voices : List (List Note)) : List TimedEvent :=
  (unorderedEvents timing voices).mergeSort TimedEvent.le

/-- The schedule at a frame rate. -/
def events (rate : Binary64) (voices : List (List Note)) : List TimedEvent :=
  schedule (.ofRate rate) voices

end ChipScore.Midi
