import ChipScore.Cpu.Run
import ChipScore.Destination
import ChipScore.Midi.Event
import ChipScore.Tune

/-!
# Errors

Everything that can go wrong between a tune file and its notes.  An error has a text and a list of
causes, the first of which is the error itself.
-/

namespace ChipScore

/-- What can go wrong. -/
inductive Error
  /-- The file is not a tune. -/
  | tune (error : TuneError)
  /-- The processor met a fault in a frame. -/
  | execution (frame : Nat) (fault : IllegalOpcode)
  /-- The image does not fit into memory. -/
  | load (error : ImageTooLarge)
  /-- A note cannot be written as MIDI. -/
  | midi (error : Midi.EventError)
  /-- A destination fails. -/
  | io (fault : IoFault)
  /-- A destination refuses the note dump. -/
  | dump (fault : IoFault)
  /-- The tune plays by interrupts. -/
  | unsupportedPlayAddress
  /-- The routine that starts a song does not return. -/
  | initTimeout (cycles : Nat) (pc : UInt16)
  /-- There is no such song. -/
  | invalidSong (song songs : UInt16)
  deriving DecidableEq

namespace Error

/-- The text of an error. -/
def message : Error → String
  | tune error => error.message
  | execution frame fault => "CPU fault in frame " ++ toString frame ++ ": " ++ fault.message
  | load error => error.message
  | midi error => error.message
  | io fault => "I/O error: " ++ fault.message
  | dump fault => "JSON error: " ++ fault.message
  | unsupportedPlayAddress => "play address is 0; interrupt-driven players are not supported"
  | initTimeout cycles pc =>
    "init routine did not return within " ++ toString cycles ++ " cycles (PC=" ++ Hex.address pc
      ++ ")"
  | invalidSong song songs =>
    "song " ++ toString song.toNat ++ " does not exist (file has " ++ toString songs.toNat
      ++ " songs)"

/-- The texts of an error and of what lies behind it. -/
def causes (error : Error) : List String :=
  error.message ::
    match error with
    | tune (.unreadable fault) => [fault.message]
    | execution _ fault => [fault.message]
    | io fault => [fault.message]
    | dump fault => [fault.message]
    | _ => []

end Error

end ChipScore
