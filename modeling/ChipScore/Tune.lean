import ChipScore.Destination
import ChipScore.Text.Hex
import ChipScore.Text.Quoted
import ChipScore.Word

/-!
# Tune files

A tune file of the PSID format has a header of 124 bytes with addresses, the number of songs and
three texts, and then a program image that begins with its own load address.  Words of the header
are stored high byte first, the load address low byte first, and texts are Latin-1 with a zero
byte behind them if they are shorter than their field.
-/

namespace ChipScore

/-- Why a file is not a tune. -/
inductive TuneError
  /-- The file is shorter than a header. -/
  | tooSmall (length : Nat)
  /-- The file begins with other characters. -/
  | unknownFormat (magic : List Char)
  /-- The version of the format is not known. -/
  | unsupportedVersion (version : UInt16)
  /-- The image does not follow the header. -/
  | invalidDataOffset (offset : UInt16)
  /-- The header has a load address. -/
  | unsupportedLoadAddress (address : UInt16)
  /-- The image is too short to have a load address. -/
  | missingLoadAddress
  /-- The file cannot be read. -/
  | unreadable (fault : IoFault)
  deriving DecidableEq

/-- The text of an error. -/
def TuneError.message : TuneError → String
  | .tooSmall length =>
    "file is too small: " ++ toString length ++ " bytes, a PSID file has at least 124 bytes"
  | .unknownFormat magic =>
    "unknown file format " ++ Quoted.quote magic ++ ", only PSID is supported"
  | .unsupportedVersion version =>
    "unsupported version " ++ toString version.toNat ++ ", only versions 2, 3 and 4 are supported"
  | .invalidDataOffset offset => "invalid data offset 0x" ++ Hex.word offset ++ ", expected 0x007C"
  | .unsupportedLoadAddress address =>
    "unsupported load address " ++ Hex.address address
      ++ ", only an embedded load address is supported"
  | .missingLoadAddress => "program image is missing its load address"
  | .unreadable fault => "failed to read PSID file: " ++ fault.message

/-- A tune. -/
structure Tune where
  /-- The version of the format. -/
  version : UInt16
  /-- Where the image is loaded. -/
  loadAddress : UInt16
  /-- The routine that starts a song. -/
  initAddress : UInt16
  /-- The routine that plays a frame. -/
  playAddress : UInt16
  /-- The number of songs. -/
  songs : UInt16
  /-- The song to start with, counted from one. -/
  startSong : UInt16
  /-- The name of the tune. -/
  name : String
  /-- Who wrote it. -/
  author : String
  /-- When and by whom it was released. -/
  released : String
  /-- The program image, without its load address. -/
  image : List UInt8
  deriving DecidableEq, Inhabited

namespace Tune

/-- The length of the header, and so the offset of the image. -/
def headerLength : Nat :=
  0x7C

/-- The length of a text field. -/
def textLength : Nat :=
  32

/-- The characters of a file's first four bytes. -/
def magic : List Char :=
  ['P', 'S', 'I', 'D']

/-- Bytes as Latin-1 characters. -/
def latin1 (bytes : List UInt8) : List Char :=
  bytes.map fun b => Char.ofNat b.toNat

/-- The word at an offset, high byte first. -/
def wordAt (bytes : List UInt8) (offset : Nat) : UInt16 :=
  Word.ofBytes (bytes.getD (offset + 1) 0) (bytes.getD offset 0)

/-- The text of the field at an offset, up to the first zero byte. -/
def textAt (bytes : List UInt8) (offset : Nat) : String :=
  String.ofList (latin1 (((bytes.drop offset).take textLength).takeWhile (· != 0)))

/-- The tune in a file. -/
def parse (bytes : List UInt8) : Except TuneError Tune :=
  let version := wordAt bytes 0x04
  let dataOffset := wordAt bytes 0x06
  let loadAddress := wordAt bytes 0x08
  if bytes.length < headerLength then .error (.tooSmall bytes.length)
  else if latin1 (bytes.take 4) ≠ magic then .error (.unknownFormat (latin1 (bytes.take 4)))
  else if version < 2 ∨ 4 < version then .error (.unsupportedVersion version)
  else if dataOffset.toNat ≠ headerLength then .error (.invalidDataOffset dataOffset)
  else if loadAddress ≠ 0 then .error (.unsupportedLoadAddress loadAddress)
  else
    match bytes.drop headerLength with
    | low :: high :: image =>
      .ok {
        version := version
        loadAddress := Word.ofBytes low high
        initAddress := wordAt bytes 0x0A
        playAddress := wordAt bytes 0x0C
        songs := wordAt bytes 0x0E
        startSong := wordAt bytes 0x10
        name := textAt bytes 0x16
        author := textAt bytes 0x36
        released := textAt bytes 0x56
        image := image }
    | _ => .error .missingLoadAddress

/-- The address of the last byte of the image, or the load address if the image is empty. -/
def endAddress (tune : Tune) : Nat :=
  tune.loadAddress.toNat + (tune.image.length - 1)

end Tune

end ChipScore
