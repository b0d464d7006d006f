import ChipScore.Cpu.Journal
import ChipScore.Player

/-!
# What a player reports

The events of starting a tune, of playing frames and of ending the music.  Like the events of the
processor they are a function of the states that are gone through.
-/

namespace ChipScore

/-- What a player reports. -/
inductive PlayerEvent
  /-- The board is assembled. -/
  | board (event : AttachEvent)
  /-- The image is in memory. -/
  | loaded (tune : Tune)
  /-- The processor reports. -/
  | cpu (event : CpuEvent)
  /-- The init routine of a song returned. -/
  | started (song : UInt16) (cycles : Nat)
  /-- The play routine is still running at the start of a frame, for the first time or again. -/
  | overran (first : Bool) (frame : Nat) (pc : UInt16)
  /-- A transcriber reports. -/
  | transcriber (event : TranscriberEvent)
  /-- The music ends. -/
  | finished (frame : Nat)
  deriving DecidableEq

/-- The log record of an event. -/
def PlayerEvent.record : PlayerEvent → Log.Record
  | board event => event.record
  | loaded tune =>
    ⟨.info, "loaded " ++ toString tune.image.length ++ " bytes at "
      ++ Hex.address tune.loadAddress ++ "-$" ++ String.ofList (Hex.digits 4 tune.endAddress)
      ++ ", init " ++ Hex.address tune.initAddress ++ ", play " ++ Hex.address tune.playAddress⟩
  | cpu event => event.record
  | started song cycles =>
    ⟨.debug, "init for song " ++ toString song.toNat ++ " returned after " ++ toString cycles
      ++ " cycles"⟩
  | overran true frame pc =>
    ⟨.warn, "play routine overran frame " ++ toString frame ++ " (PC=" ++ Hex.address pc
      ++ "); letting it continue"⟩
  | overran false frame _ => ⟨.debug, "play routine overran frame " ++ toString frame⟩
  | transcriber event => event.record
  | finished frame => ⟨.debug, "stopped all voices at frame " ++ toString frame⟩

namespace Player

/-- What starting a tune reports. -/
def startEvents (tune : Tune) (config : Config) : List PlayerEvent :=
  match refusal? tune config with
  | some _ => []
  | none =>
    let limit := config.initCycleLimit
    let cpu := initCall tune config
    let run := (cpu.runToHaltEvents #[] limit).toList.map PlayerEvent.cpu
    let after := (cpu.runToHalt limit).1
    let outcome :=
      if after.halted then [.started (chosenSong tune config) (after.cycles - cpu.cycles)] else []
    Board.attachEvents.map .board ++ [.loaded tune, .cpu (.calling tune.initAddress)] ++ run
      ++ outcome

/-- What the start of a frame reports. -/
def beginEvents (p : Player) : List PlayerEvent :=
  if p.cpu.halted then
    [.cpu (.calling p.playAddress)]
  else
    [.overran (p.overruns == 0) p.frame p.cpu.pc]

/-- What playing one frame reports. -/
def frameEvents (p : Player) : List PlayerEvent :=
  let begun := p.beginFrame
  let run := begun.cpu.runEvents #[] p.config.region.cyclesPerFrame
  let ended :=
    match begun.runFrame with
    | (_, some _) => []
    | (after, none) => (after.chip.frameEvents after.clock).map PlayerEvent.transcriber
  p.beginEvents ++ run.toList.map .cpu ++ ended

/-- Appends what playing a number of frames reports to earlier events. -/
def framesEvents (p : Player) (earlier : Array PlayerEvent) : Nat → Array PlayerEvent
  | 0 => earlier
  | n + 1 =>
    let earlier := earlier.appendList p.frameEvents
    match p.stepFrame with
    | (_, some _) => earlier
    | (after, none) => after.framesEvents earlier n

/-- What ending the music reports. -/
def finishEvents (p : Player) : List PlayerEvent :=
  [.finished p.frame]

end Player

end ChipScore
