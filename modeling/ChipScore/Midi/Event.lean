/-!
# MIDI events

The events of a track and their bytes.  A channel has four bits and a key or a program has seven;
an event whose numbers do not fit has no bytes.
-/

namespace ChipScore.Midi

/-- Why an event has no bytes. -/
inductive EventError
  /-- The channel does not fit. -/
  | channelOutOfRange (channel : Nat)
  /-- The key does not fit. -/
  | keyOutOfRange (key : Int)
  /-- The program does not fit. -/
  | programOutOfRange (program : UInt8)
  deriving DecidableEq

/-- The text of an error. -/
def EventError.message : EventError → String
  | .channelOutOfRange channel => "channel " ++ toString channel ++ " is out of range (0-15)"
  | .keyOutOfRange key => "key " ++ toString key ++ " is out of range (0-127)"
  | .programOutOfRange program => "program " ++ toString program.toNat ++ " is out of range (0-127)"

/-- An event of a track. -/
inductive Event
  /-- The time signature: numerator, power of two of the denominator, clocks in a click and
  thirty-second notes in a quarter. -/
  | timeSignature (numerator denominator clocks thirtySeconds : UInt8)
  /-- The key signature: sharps, or flats if negative, and the mode. -/
  | keySignature (sharps : Int8) (major : Bool)
  /-- A channel's program. -/
  | programChange (channel : Nat) (program : UInt8)
  /-- A key is struck. -/
  | noteOn (channel : Nat) (key : Int)
  /-- A key is let go. -/
  | noteOff (channel : Nat) (key : Int)
  /-- The end of the track. -/
  | endOfTrack
  deriving DecidableEq, Inhabited

namespace Event

/-- How hard keys are struck and let go. -/
def velocity : UInt8 :=
  40

/-- A status byte with the number of a channel in its lower half. -/
def status (high : UInt8) (channel : Nat) : Except EventError UInt8 :=
  if channel ≤ 15 then .ok (high ||| UInt8.ofNat channel) else .error (.channelOutOfRange channel)

/-- The number of a key as a byte. -/
def keyByte (key : Int) : Except EventError UInt8 :=
  if 0 ≤ key ∧ key ≤ 127 then .ok (UInt8.ofNat key.toNat) else .error (.keyOutOfRange key)

/-- The bytes of an event on a key. -/
def keyEvent (high : UInt8) (channel : Nat) (key : Int) : Except EventError (List UInt8) := do
  let first ← status high channel
  let second ← keyByte key
  return [first, second, velocity]

/-- The bytes of an event.  Of two numbers that do not fit the first is reported, the program
before the channel and the channel before the key. -/
def bytes : Event → Except EventError (List UInt8)
  | timeSignature numerator denominator clocks thirtySeconds =>
    .ok [0xFF, 0x58, 0x04, numerator, denominator, clocks, thirtySeconds]
  | keySignature sharps major => .ok [0xFF, 0x59, 0x02, sharps.toUInt8, if major then 0 else 1]
  | programChange channel program =>
    if 127 < program then
      .error (.programOutOfRange program)
    else
      (status 0xC0 channel).map fun first => [first, program]
  | noteOn channel key => keyEvent 0x90 channel key
  | noteOff channel key => keyEvent 0x80 channel key
  | endOfTrack => .ok [0xFF, 0x2F, 0x00]

/-- Whether an event strikes a key. -/
def isNoteOn : Event → Bool
  | noteOn .. => true
  | _ => false

end Event

end ChipScore.Midi
