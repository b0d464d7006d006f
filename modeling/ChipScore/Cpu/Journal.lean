import ChipScore.Cpu.Run
import ChipScore.Disassembly
import ChipScore.Log

/-!
# What a run reports

The events of a run are a function of the states it goes through: `Cpu.tickEvents` says what the
next tick reports, and the events of a run are those of its ticks, in order.
-/

namespace ChipScore

/-- What the processor reports. -/
inductive CpuEvent
  /-- An instruction is about to be executed. -/
  | executing (address : UInt16) (bytes : List UInt8) (a x y status sp : UInt8) (cycles : Nat)
  /-- A break stops the processor. -/
  | halting (address : UInt16)
  /-- An unbound opcode is passed over. -/
  | skipped (opcode : UInt8) (address : UInt16)
  /-- A routine is called. -/
  | calling (address : UInt16)
  deriving DecidableEq

namespace CpuEvent

/-- A text with blanks behind it, up to a width. -/
def padded (width : Nat) (text : String) : String :=
  text ++ String.ofList (List.replicate (width - text.length) ' ')

/-- The text of the instruction at the front of some bytes. -/
def listing (address : UInt16) (bytes : List UInt8) : String :=
  match Instruction.decode? address bytes with
  | some i => i.text.toOption.getD ""
  | none => ".byte $" ++ Hex.byte (bytes.headD 0)

/-- The log record of an event. -/
def record : CpuEvent → Log.Record
  | .executing address bytes a x y status sp cycles =>
    ⟨.trace, Hex.word address ++ "  " ++ padded 14 (listing address bytes) ++ " A:" ++ Hex.byte a
      ++ " X:" ++ Hex.byte x ++ " Y:" ++ Hex.byte y ++ " P:" ++ Hex.byte status
      ++ " SP:" ++ Hex.byte sp ++ " CYC:" ++ toString cycles⟩
  | .halting address => ⟨.trace, "BRK at " ++ Hex.address address ++ ", halting"⟩
  | .skipped opcode address =>
    ⟨.warn, "illegal opcode 0x" ++ Hex.byte opcode ++ " at " ++ Hex.address address
      ++ " treated as NOP"⟩
  | .calling address => ⟨.debug, "calling routine at " ++ Hex.address address⟩

end CpuEvent

namespace Cpu

variable {β : Type} [Bus β]

/-- What dispatching reports. -/
def dispatchEvents (s : Cpu β) : List CpuEvent :=
  match Opcode.binding? s.opcode with
  | some b =>
    .executing s.pc (Bus.readFrom s.bus s.pc 3) s.a s.x s.y s.status s.sp s.cycles ::
      (if b.operation.effect = .halt then [.halting s.pc] else [])
  | none => [.skipped s.opcode s.pc]

/-- What the next tick reports; a fault reports nothing. -/
def tickEvents (s : Cpu β) : List CpuEvent :=
  if s.dispatches && s.fault?.isNone then s.dispatchEvents else []

/-- Appends the events of a number of ticks, up to a fault, to earlier events. -/
def runEvents (s : Cpu β) (earlier : Array CpuEvent) : Nat → Array CpuEvent
  | 0 => earlier
  | n + 1 =>
    match s.fault? with
    | some _ => earlier
    | none => s.tick.runEvents (earlier.appendList s.tickEvents) n

/-- Appends the events of a run to the halt to earlier events. -/
def runToHaltEvents (s : Cpu β) (earlier : Array CpuEvent) : Nat → Array CpuEvent
  | 0 => earlier
  | n + 1 =>
    if s.halted then
      earlier
    else
      match s.fault? with
      | some _ => earlier
      | none => s.tick.runToHaltEvents (earlier.appendList s.tickEvents) n

end Cpu

end ChipScore
