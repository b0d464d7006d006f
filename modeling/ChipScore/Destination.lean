/-!
# Destinations

Notes are written to a destination, which may refuse the bytes or fail when it is flushed.  What a
destination does is left open: it may be a file, or a buffer in a test.
-/

namespace ChipScore

/-- Why a file or a destination fails. -/
inductive IoFault
  /-- There is no such file or directory. -/
  | notFound
  /-- A part of the path is a file. -/
  | notDirectory
  /-- The path names a directory. -/
  | isDirectory
  /-- Access is not permitted. -/
  | denied
  /-- A name, or the whole path, is too long. -/
  | nameTooLong
  /-- The device is full. -/
  | noSpace
  /-- The file does not fit into memory. -/
  | noMemory
  /-- The destination stopped taking bytes. -/
  | stalled
  /-- Any other reason, in words. -/
  | other (text : String)
  deriving DecidableEq, Inhabited

/-- The text of a failure. -/
def IoFault.message : IoFault → String
  | .notFound => "No such file or directory (os error 2)"
  | .notDirectory => "Not a directory (os error 20)"
  | .isDirectory => "Is a directory (os error 21)"
  | .denied => "Permission denied (os error 13)"
  | .nameTooLong => "File name too long (os error 36)"
  | .noSpace => "No space left on device (os error 28)"
  | .noMemory => "out of memory"
  | .stalled => "failed to write whole buffer"
  | .other text => text

/-- Where bytes can be written. -/
structure Destination (m : Type → Type) where
  /-- Writes all of some bytes. -/
  write : List UInt8 → m (Except IoFault Unit)
  /-- Makes sure that everything has been written. -/
  flush : m (Except IoFault Unit)

namespace Destination

variable {m : Type → Type} [Monad m]

/-- The number of bytes that a buffer holds. -/
def bufferSize : Nat :=
  8192

/-- A destination behind a buffer.  Bytes that fit are kept in the buffer, whose content is the
state; the destination itself sees them when others no longer fit, or when everything is flushed.
So a full device shows late. -/
def buffered (dest : Destination m) : Destination (StateT (List UInt8) m) where
  write bytes := do
    let kept ← get
    if kept.length + bytes.length ≤ bufferSize then
      set (kept ++ bytes)
      return .ok ()
    else
      set ([] : List UInt8)
      dest.write (kept ++ bytes)
  flush := do
    let kept ← get
    set ([] : List UInt8)
    match ← dest.write kept with
    | .error fault => return .error fault
    | .ok () => dest.flush

end Destination

end ChipScore
