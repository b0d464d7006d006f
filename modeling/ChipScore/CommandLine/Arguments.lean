import ChipScore.Player.Config

/-!
# Command-line arguments

A command line names one tune file and has options, in any order.  An option that takes a value
takes it from the same argument or from the next one; short options can share an argument.  What
follows a lone `--` is a file name.

The arguments become a list of tokens, and a `Draft` takes in one token after the other.  The
first mistake ends this, and so does a request for help: help is given in spite of whatever comes
later, and of what only shows at the end, such as a missing file.
-/

namespace ChipScore.CommandLine

/-- The options. -/
inductive OptionName
  | seconds
  | frames
  | song
  | ntsc
  | allowIllegalOpcodes
  | json
  | midi
  | verbose
  deriving DecidableEq

namespace OptionName

/-- Whether an option takes a value. -/
def takesValue : OptionName → Bool
  | ntsc | allowIllegalOpcodes | verbose => false
  | _ => true

/-- The option with a long name. -/
def ofLong? (name : String) : Option OptionName :=
  match name with
  | "seconds" => some seconds
  | "frames" => some frames
  | "song" => some song
  | "ntsc" => some ntsc
  | "allow-illegal-opcodes" => some allowIllegalOpcodes
  | "json" => some json
  | "midi" => some midi
  | "verbose" => some verbose
  | _ => none

/-- The option with a short name. -/
def ofShort? (name : Char) : Option OptionName :=
  match name with
  | 's' => some seconds
  | 'f' => some frames
  | 'v' => some verbose
  | _ => none

end OptionName

/-- The command line makes no sense. -/
inductive UsageError
  /-- There is no such option. -/
  | unknownOption (text : String)
  /-- An option lacks its value. -/
  | missingValue (name : OptionName)
  /-- An option that takes no value is given one. -/
  | unexpectedValue (name : String)
  /-- An option is given more than once. -/
  | repeatedOption (name : OptionName)
  /-- A value cannot be read. -/
  | badValue (name : OptionName) (text : String)
  /-- Both a number of frames and a number of seconds are given. -/
  | conflict
  /-- No file is given. -/
  | missingFile
  /-- A file without a name is given. -/
  | emptyFile
  /-- More than one file is given. -/
  | extraFile (name : String)
  deriving DecidableEq

/-- A part of the command line. -/
inductive Token
  /-- A file name. -/
  | file (name : String)
  /-- An option, with its value if it takes one. -/
  | option (name : OptionName) (value : String)
  /-- A request for help. -/
  | help
  /-- A mistake. -/
  | mistake (error : UsageError)
  deriving DecidableEq

/-- Whether an argument is an option rather than a value or a file. -/
def isOption (text : String) : Bool :=
  match text.toList with
  | '-' :: _ :: _ => true
  | _ => false

/-- A text without the equals sign that may stand in front of a value. -/
def withoutEquals : List Char → String
  | '=' :: rest => String.ofList rest
  | rest => String.ofList rest

/-- The tokens of a run of short options, and the last option if its value is still to come. -/
def cluster : List Char → List Token × Option OptionName
  | [] => ([], none)
  | 'h' :: _ => ([.help], none)
  | c :: rest =>
    match OptionName.ofShort? c with
    | none => ([.mistake (.unknownOption (String.singleton c))], none)
    | some name =>
      if name.takesValue then
        if rest.isEmpty then ([], some name) else ([.option name (withoutEquals rest)], none)
      else
        let (tokens, pending) := cluster rest
        (.option name "" :: tokens, pending)

/-- The token of a long option, or the option if its value is still to come. -/
def long (text : List Char) : List Token × Option OptionName :=
  let name := String.ofList (text.takeWhile (· ≠ '='))
  let value := text.dropWhile (· ≠ '=')
  let plain (token : Token) : List Token × Option OptionName :=
    ([if value.isEmpty then token else .mistake (.unexpectedValue name)], none)
  if name = "help" then
    plain .help
  else
    match OptionName.ofLong? name with
    | none => ([.mistake (.unknownOption name)], none)
    | some option =>
      if !option.takesValue then plain (.option option "")
      else if value.isEmpty then ([], some option)
      else ([.option option (withoutEquals value)], none)

/-- The tokens of a command line. -/
def tokens : List String → List Token
  | [] => []
  | argument :: rest =>
    if argument = "--" then
      rest.map .file
    else if isOption argument then
      let (first, pending) :=
        match argument.toList with
        | '-' :: '-' :: text => long text
        | text => cluster (text.drop 1)
      match pending, rest with
      | none, rest => first ++ tokens rest
      | some name, [] => first ++ [.mistake (.missingValue name)]
      | some name, value :: rest =>
        if isOption value then
          first ++ [.mistake (.missingValue name)]
        else
          first ++ .option name value :: tokens rest
    else
      .file argument :: tokens rest

/-- How a tune is to be played, and where its notes go. -/
structure Settings where
  /-- The seconds to play. -/
  seconds : Option Binary64
  /-- The frames to play. -/
  frames : Option Nat
  /-- The song to play. -/
  song : Option UInt16
  /-- Whether the machine is an NTSC one. -/
  ntsc : Bool
  /-- Whether unbound opcodes are passed over. -/
  allowIllegalOpcodes : Bool
  /-- Where to write the note dump. -/
  json : Option String
  /-- Where to write the MIDI file. -/
  midi : Option String
  /-- How often more output is asked for. -/
  verbose : Nat

namespace Settings

/-- The settings without any option. -/
def default : Settings where
  seconds := none
  frames := none
  song := none
  ntsc := false
  allowIllegalOpcodes := false
  json := none
  midi := none
  verbose := 0

/-- The seconds that are played if nothing else is asked for. -/
def defaultSeconds : Binary64 :=
  Binary64.ofNat 60

/-- How the player is to be set up. -/
def config (settings : Settings) : Config where
  region := if settings.ntsc then .ntsc else .pal
  song := settings.song
  policy := if settings.allowIllegalOpcodes then .skip else .fail
  initCycles := none

end Settings

/-- What the user asks for. -/
structure Arguments extends Settings where
  /-- The tune file. -/
  file : String

/-- The natural number that a run of digits names. -/
def readDigits? (digits : List Char) : Option Nat :=
  if !digits.isEmpty && digits.all Char.isDigit then some (Decimal.value digits) else none

/-- A natural number of sixty-four bits, with a plus sign allowed. -/
def readNat64? (text : String) : Option Nat :=
  let digits :=
    match text.toList with
    | '+' :: rest => rest
    | rest => rest
  (readDigits? digits).filter (· ≤ Binary64.maxNat64)

/-- A natural number of sixteen bits, with a sign allowed, so that zero may be negative. -/
def readWord? (text : String) : Option UInt16 :=
  let (negative, digits) := Decimal.signed text.toList
  match readDigits? digits with
  | some n => if n < (if negative then 1 else 0x10000) then some (UInt16.ofNat n) else none
  | none => none

/-- A file name, which must not be empty. -/
def readPath? (text : String) : Option String :=
  if text.isEmpty then none else some text

/-- The value of an option that has none so far, read by a reader. -/
def fill {α : Type} (name : OptionName) (read? : String → Option α) (text : String) :
    Option α → Except UsageError (Option α)
  | some _ => .error (.repeatedOption name)
  | none =>
    match read? text with
    | some a => .ok (some a)
    | none => .error (.badValue name text)

/-- A switch that is turned on. -/
def turnOn (name : OptionName) (isOn : Bool) : Except UsageError Bool :=
  if isOn then .error (.repeatedOption name) else .ok true

namespace Settings

/-- Takes in an option. -/
def accept (settings : Settings) (name : OptionName) (value : String) :
    Except UsageError Settings :=
  match name with
  | .seconds => do
    return { settings with seconds := ← fill name Decimal.read? value settings.seconds }
  | .frames => do return { settings with frames := ← fill name readNat64? value settings.frames }
  | .song => do return { settings with song := ← fill name readWord? value settings.song }
  | .ntsc => do return { settings with ntsc := ← turnOn name settings.ntsc }
  | .allowIllegalOpcodes => do
    return { settings with allowIllegalOpcodes := ← turnOn name settings.allowIllegalOpcodes }
  | .json => do return { settings with json := ← fill name readPath? value settings.json }
  | .midi => do return { settings with midi := ← fill name readPath? value settings.midi }
  | .verbose => .ok { settings with verbose := settings.verbose + 1 }

end Settings

/-- What is known of a command line that has been read in part. -/
structure Draft extends Settings where
  /-- The tune file, once it has been named. -/
  file : Option String

/-- What a command line asks for. -/
inductive Request
  /-- Help. -/
  | help
  /-- Playing a tune. -/
  | play (arguments : Arguments)

namespace Draft

/-- Nothing has been read. -/
def empty : Draft :=
  ⟨Settings.default, none⟩

/-- Takes in a file name. -/
def acceptFile (draft : Draft) (name : String) : Except UsageError Draft :=
  match draft.file with
  | some _ => .error (.extraFile name)
  | none => if name.isEmpty then .error .emptyFile else .ok { draft with file := some name }

/-- The arguments that the whole command line makes up. -/
def finish (draft : Draft) : Except UsageError Arguments :=
  if draft.seconds.isSome && draft.frames.isSome then
    .error .conflict
  else
    match draft.file with
    | some file => .ok ⟨draft.toSettings, file⟩
    | none => .error .missingFile

/-- Takes in tokens, up to a request for help or a mistake. -/
def read (draft : Draft) : List Token → Except UsageError Request
  | [] => draft.finish.map .play
  | .help :: _ => .ok .help
  | .mistake error :: _ => .error error
  | .file name :: rest => do (← draft.acceptFile name).read rest
  | .option name value :: rest => do
    ({ draft with toSettings := ← draft.accept name value } : Draft).read rest

end Draft

/-- Reads a command line. -/
def Request.parse (arguments : List String) : Except UsageError Request :=
  Draft.empty.read (tokens arguments)

end ChipScore.CommandLine
