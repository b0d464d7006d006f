import ChipScore.Error
import ChipScore.Midi.File
import ChipScore.Note.Dump

/-!
# Exporting notes

Notes are written to a destination as a note dump or as a MIDI file.  Both write everything and
then flush; a MIDI file is complete before its first byte is written.
-/

namespace ChipScore.Export

variable {m : Type → Type} [Monad m]

/-- Writes bytes and flushes; a refused write and a failed flush are different errors. -/
def deliver (dest : Destination m) (refused : IoFault → Error) (bytes : List UInt8) :
    m (Except Error Unit) := do
  match ← dest.write bytes with
  | .error fault => return .error (refused fault)
  | .ok () =>
    match ← dest.flush with
    | .error fault => return .error (.io fault)
    | .ok () => return .ok ()

/-- Writes the note dump. -/
def dump (dest : Destination m) (voices : List (List Note)) : m (Except Error Unit) :=
  deliver dest .dump (NoteRecord.dump voices).toUTF8.toList

/-- Writes a MIDI file. -/
def midi (dest : Destination m) (rate : Binary64) (voices : List (List Note)) :
    m (Except Error Unit) :=
  match Midi.fileBytes rate voices with
  | .error error => return .error (.midi error)
  | .ok bytes => deliver dest .io bytes

end ChipScore.Export
