import ChipScore.CommandLine.Arguments
import ChipScore.Export
import ChipScore.Player

/-!
# The command line

The program reads a tune file, plays it, and writes what was asked for.  It does so in any monad
that has files to read and to create and streams to print to, given as a `Host`.
-/

namespace ChipScore

/-- What the program needs of the machine that it runs on. -/
structure Host (m : Type → Type) where
  /-- The bytes of a file. -/
  read : String → m (Except IoFault (List UInt8))
  /-- An empty file in place of whatever was there. -/
  create : String → m (Except IoFault (Destination m))
  /-- Prints on the standard output. -/
  print : String → m Unit
  /-- Prints on the standard error. -/
  warn : String → m Unit

namespace CommandLine

/-- How the program ends. -/
inductive Exit
  /-- It did what was asked for. -/
  | success
  /-- It failed. -/
  | failure
  /-- The command line makes no sense. -/
  | misuse
  deriving DecidableEq, Inhabited

/-- The exit code. -/
def Exit.code : Exit → Nat
  | success => 0
  | failure => 1
  | misuse => 2

/-- What stops the program: what it was doing, and the causes. -/
structure Failure where
  /-- What the program was doing. -/
  context : String
  /-- The causes, the nearest first. -/
  causes : List String
  deriving DecidableEq, Inhabited

/-- The text of a failure.  Several causes are numbered, a single one is not. -/
def Failure.text (failure : Failure) : String :=
  let lines :=
    match failure.causes with
    | [cause] => ["    " ++ cause]
    | causes => causes.zipIdx.map fun (cause, i) => "    " ++ toString i ++ ": " ++ cause
  "Error: " ++ failure.context ++ "\n\nCaused by:\n" ++ "\n".intercalate lines ++ "\n"

/-- The lines that describe a tune. -/
def describe (tune : Tune) : List String :=
  ["Name:     " ++ tune.name,
    "Author:   " ++ tune.author,
    "Released: " ++ tune.released,
    "Songs:    " ++ toString tune.songs.toNat ++ " (start song " ++ toString tune.startSong.toNat
      ++ "), load " ++ Hex.address tune.loadAddress ++ ", init " ++ Hex.address tune.initAddress
      ++ ", play " ++ Hex.address tune.playAddress]

/-- The lines that sum up what was played. -/
def summarise (player : Player) (voices : List (List Note)) : List String :=
  ("Played song " ++ toString player.song.toNat ++ " for " ++ toString player.frame ++ " frames") ::
    voices.zipIdx.map fun (notes, voice) =>
      "Voice " ++ toString (voice + 1) ++ ": " ++ toString notes.length ++ " notes"

/-- Failing on the way. -/
abbrev Session (m : Type → Type) : Type → Type :=
  ExceptT Failure m

variable {m : Type → Type} [Monad m]

/-- Prints lines. -/
def printLines (host : Host m) (lines : List String) : Session m Unit :=
  host.print (String.join (lines.map (· ++ "\n")))

/-- Goes on with a result, or fails in a context. -/
def orFail {ε α : Type} (context : String) (causes : ε → List String) :
    Except ε α → Session m α
  | .ok a => pure a
  | .error error => throw ⟨context, causes error⟩

/-- Reads the tune file. -/
def readTune (host : Host m) (path : String) : Session m Tune := do
  let bytes ← host.read path
  let tune :=
    match bytes with
    | .ok bytes => (Tune.parse bytes).mapError Error.tune
    | .error fault => .error (.tune (.unreadable fault))
  orFail ("failed to load " ++ path) Error.causes tune

/-- Writes an export to a new file, through a buffer. -/
def writeTo (host : Host m) (path title : String)
    (deliver : Destination (StateT (List UInt8) m) → StateT (List UInt8) m (Except Error Unit)) :
    Session m Unit := do
  let created ← host.create path
  let dest ← orFail ("failed to create " ++ path) (fun fault => [IoFault.message fault]) created
  let delivered ← (deliver dest.buffered).run' []
  orFail ("failed to write " ++ path) Error.causes delivered
  printLines host ["Wrote " ++ title ++ " to " ++ path]

/-- Plays for as long as was asked for. -/
def playFor (arguments : Arguments) (player : Player) : Player × Option Error :=
  match arguments.frames with
  | some frames => player.runFrames frames
  | none => player.runSeconds (arguments.seconds.getD Settings.defaultSeconds)

/-- Reads, plays and writes. -/
def session (host : Host m) (arguments : Arguments) : Session m Unit := do
  let tune ← readTune host arguments.file
  printLines host (describe tune)
  let player ← orFail "failed to initialise tune" Error.causes
    (Player.start tune arguments.config)
  let (player, error?) := playFor arguments player
  match error? with
  | some error => throw ⟨"playback failed", error.causes⟩
  | none => pure ()
  let voices := player.finish
  printLines host (summarise player voices)
  match arguments.json with
  | some path => writeTo host path "note dump" fun dest => Export.dump dest voices
  | none => pure ()
  match arguments.midi with
  | some path =>
    writeTo host path "MIDI file" fun dest =>
      Export.midi dest arguments.config.region.frameRate voices
  | none => pure ()

/-- How to use the program. -/
def usage : String :=
  "Usage: chip-score [-s SECONDS | -f FRAMES] [--song SONG] [--ntsc] [--allow-illegal-opcodes]\n"
    ++ "    [--json PATH] [--midi PATH] [-v]... FILE\n"

/-- Runs the program. -/
def run (host : Host m) (arguments : List String) : m Exit := do
  match Request.parse arguments with
  | .error _ =>
    host.warn usage
    return .misuse
  | .ok .help =>
    host.print usage
    return .success
  | .ok (.play arguments) =>
    match ← (session host arguments).run with
    | .ok () => return .success
    | .error failure =>
      host.warn failure.text
      return .failure

end CommandLine

end ChipScore
