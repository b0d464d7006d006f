import ChipScore.CommandLine

/-!
# The program

The outermost layer: the command line on the machine that it runs on.
-/

namespace ChipScore

/-- The failure that an error of the system stands for; some of its numbers come negated. -/
def IoFault.ofError : IO.Error → IoFault
  | .noFileOrDirectory .. => .notFound
  | .resourceExhausted .. => .noSpace
  | .permissionDenied .. => .denied
  | .invalidArgument _ code text =>
    if code = 36 ∨ code = 0 - 36 then .nameTooLong else .other text
  | .inappropriateType _ code _ =>
    if code = 21 ∨ code = 0 - 21 then .isDirectory else .notDirectory
  | error => .other (toString error)

/-- The result of an action, with its error as a failure. -/
def attempt {α : Type} (action : IO α) : IO (Except IoFault α) := do
  try
    return .ok (← action)
  catch error =>
    return .error (.ofError error)

/-- An open file as a destination. -/
def destinationOf (handle : IO.FS.Handle) : Destination IO where
  write bytes := attempt (handle.write bytes.toByteArray)
  flush := attempt handle.flush

/-- Prints a text at once. -/
def printAtOnce (stream : IO.FS.Stream) (text : String) : IO Unit := do
  stream.putStr text
  stream.flush

/-- The machine as the host of the program. -/
def systemHost : Host IO where
  read path := attempt do
    let bytes ← IO.FS.readBinFile path
    return bytes.toList
  create path := attempt do
    let handle ← IO.FS.Handle.mk path .write
    return destinationOf handle
  print text := do printAtOnce (← IO.getStdout) text
  warn text := do printAtOnce (← IO.getStderr) text

end ChipScore

/-- Runs the command line. -/
def main (arguments : List String) : IO UInt32 := do
  let exit ← ChipScore.CommandLine.run ChipScore.systemHost arguments
  return UInt32.ofNat exit.code
