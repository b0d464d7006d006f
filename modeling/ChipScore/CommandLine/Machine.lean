import ChipScore.CommandLine
import ChipScore.Text.Utf8

/-!
# A machine in memory

The command line does not need a real machine.  A `Machine` has a tree of folders with files, some
of them special, and the two streams that the program prints to; the folders are fixed, and the program
runs in one of them.

A path is followed part by part, from the root or from the folder of the program.  Every part but
the last has to lead to a folder.  The length of a name and that of a whole path are limited, and
are counted in bytes.
-/

namespace ChipScore

/-- A place in the tree: the names on the way to it, the last one first. -/
abbrev Place :=
  List String

/-- The files that are not stored but stand for a part of the machine. -/
inductive SpecialFile
  /-- Swallows everything. -/
  | null
  /-- Swallows everything, and is read without end. -/
  | zero
  /-- Takes nothing, and is read without end. -/
  | full
  /-- The standard input, which is empty. -/
  | input
  /-- The standard output. -/
  | output
  /-- The standard error. -/
  | errors
  deriving DecidableEq

/-- What there is at a place. -/
inductive Node
  /-- A folder. -/
  | folder
  /-- A file. -/
  | file (content : List UInt8)
  /-- A special file. -/
  | special (file : SpecialFile)
  /-- Nothing. -/
  | vacant
  deriving DecidableEq

/-- A machine. -/
structure Machine where
  /-- The files by their places; the first at a place counts. -/
  files : List (Place × List UInt8)
  /-- What has been printed on the standard output. -/
  output : String
  /-- What has been printed on the standard error. -/
  errors : String
  deriving Inhabited

namespace Machine

/-- The folder in which the program runs. -/
def home : Place :=
  ["work", "tmp"]

/-- The machine with some files, given by name, in the folder of the program. -/
def ofFiles (files : List (String × List UInt8)) : Machine where
  files := files.map fun (name, content) => ([name] ++ home, content)
  output := ""
  errors := ""

/-- The folders next to the root. -/
def topFolders : List String :=
  ["bin", "boot", "dev", "etc", "home", "lib", "media", "mnt", "opt", "proc", "root", "run",
    "sbin", "srv", "sys", "tmp", "usr", "var"]

/-- The folder of the streams, by their numbers. -/
def streams : Place :=
  ["fd", "dev"]

/-- Whether there is a folder at a place. -/
def isFolder : Place → Bool
  | [] => true
  | [name] => topFolders.contains name
  | place => place == home || place == streams

/-- Whether no file can be created in a folder, because it only shows what the machine does. -/
def isReport (folder : Place) : Bool :=
  folder == ["proc"] || folder == streams

/-- The special file at a place. -/
def specialAt? : Place → Option SpecialFile
  | ["null", "dev"] => some .null
  | ["zero", "dev"] => some .zero
  | ["full", "dev"] => some .full
  | ["stdin", "dev"] | ["0", "fd", "dev"] => some .input
  | ["stdout", "dev"] | ["1", "fd", "dev"] => some .output
  | ["stderr", "dev"] | ["2", "fd", "dev"] => some .errors
  | _ => none

/-- What there is at a place. -/
def node (machine : Machine) (place : Place) : Node :=
  if isFolder place then
    .folder
  else
    match specialAt? place, machine.files.lookup place with
    | some file, _ => .special file
    | none, some content => .file content
    | none, none => .vacant

/-- The content of a file in the folder of the program. -/
def content? (machine : Machine) (name : String) : Option (List UInt8) :=
  machine.files.lookup (name :: home)

/-- Gives the file at a place its content. -/
def put (machine : Machine) (place : Place) (content : List UInt8) : Machine :=
  { machine with files := (place, content) :: machine.files.filter fun file => file.1 ≠ place }

/-! ### Paths -/

/-- The greatest number of bytes in a name. -/
def maxNameBytes : Nat :=
  255

/-- The greatest number of bytes in a path. -/
def maxPathBytes : Nat :=
  4095

/-- The place that a part of a path leads to from a folder; the root is its own parent. -/
def step (folder : Place) (part : String) : Except IoFault Place :=
  if part = "" ∨ part = "." then .ok folder
  else if part = ".." then .ok folder.tail
  else if maxNameBytes < part.utf8ByteSize then .error .nameTooLong
  else .ok (part :: folder)

/-- The place that the parts of a path lead to. -/
def walk (machine : Machine) (place : Place) : List String → Except IoFault Place
  | [] => .ok place
  | part :: rest =>
    match machine.node place with
    | .folder => do machine.walk (← step place part) rest
    | .file _ | .special _ => .error .notDirectory
    | .vacant => .error .notFound

/-- The place that a path leads to. -/
def resolve (machine : Machine) (path : String) : Except IoFault Place :=
  if path.isEmpty then .error .notFound
  else if maxPathBytes < path.utf8ByteSize then .error .nameTooLong
  else machine.walk (if path.startsWith "/" then [] else home) (path.splitOn "/")

/-- The folder on the way to the last part of a path that ends in slashes. -/
def parent (path : String) : String :=
  let text := path.toList.reverse.dropWhile (· = '/')
  String.ofList (text.dropWhile (· ≠ '/')).reverse ++ "."

/-- The place of a file to be created.  A name that is followed by a slash can only be that of a
folder, which is found out without looking for it. -/
def resolveNew (machine : Machine) (path : String) : Except IoFault Place :=
  if path.endsWith "/" && path.utf8ByteSize ≤ maxPathBytes then do
    let _ ← machine.resolve (parent path)
    throw .isDirectory
  else
    machine.resolve path

/-! ### Reading and writing -/

/-- The bytes read from a special file. -/
def specialContent : SpecialFile → Except IoFault (List UInt8)
  | .zero | .full => .error .noMemory
  | _ => .ok []

/-- The bytes of a file. -/
def read (path : String) : StateM Machine (Except IoFault (List UInt8)) := do
  let machine ← get
  return do
    match machine.node (← machine.resolve path) with
    | .folder => throw .isDirectory
    | .file content => return content
    | .special file => specialContent file
    | .vacant => throw .notFound

/-- Prints on the standard output. -/
def print (text : String) : StateM Machine Unit :=
  modify fun machine => { machine with output := machine.output ++ text }

/-- Prints on the standard error. -/
def warn (text : String) : StateM Machine Unit :=
  modify fun machine => { machine with errors := machine.errors ++ text }

/-- Writes to a special file. -/
def writeSpecial (file : SpecialFile) (bytes : List UInt8) :
    StateM Machine (Except IoFault Unit) :=
  match file with
  | .full => return if bytes.isEmpty then .ok () else .error .noSpace
  | .output => do
    print (Utf8.decode bytes)
    return .ok ()
  | .errors => do
    warn (Utf8.decode bytes)
    return .ok ()
  | .null | .zero | .input => return .ok ()

/-- Appends to the file at a place. -/
def append (place : Place) (bytes : List UInt8) : StateM Machine (Except IoFault Unit) := do
  modify fun machine => machine.put place ((machine.files.lookup place).getD [] ++ bytes)
  return .ok ()

/-- Nothing is kept back, so there is nothing to flush. -/
def destination (write : List UInt8 → StateM Machine (Except IoFault Unit)) :
    Destination (StateM Machine) where
  write := write
  flush := return .ok ()

/-- Creates a file, or empties it. -/
def create (path : String) : StateM Machine (Except IoFault (Destination (StateM Machine))) := do
  let machine ← get
  match machine.resolveNew path with
  | .error fault => return .error fault
  | .ok place =>
    match machine.node place with
    | .folder => return .error .isDirectory
    | .special file => return .ok (destination (writeSpecial file))
    | .file _ | .vacant =>
      if isReport place.tail then
        return .error .notFound
      else
        set (machine.put place [])
        return .ok (destination (append place))

/-- The machine as the host of the program. -/
def host : Host (StateM Machine) where
  read := read
  create := create
  print := print
  warn := warn

end Machine

end ChipScore
