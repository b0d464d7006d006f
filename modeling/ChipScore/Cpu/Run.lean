import ChipScore.Cpu.Instruction
import ChipScore.Text.Hex

/-!
# Running the processor

Time passes in ticks.  On a tick with no instruction in flight the opcode at the program counter
is dispatched: the instruction takes effect at once, and the ticks of its cost are then spent
idle.  A halted processor only spends ticks.

The one fault is an unbound opcode that the policy does not pass over.  `Cpu.fault?` says whether
the next tick is such a fault, and `Cpu.tick` is the tick itself, so a run that meets a fault
stops in the state before it.
-/

namespace ChipScore

/-- An opcode that is bound to nothing was about to be dispatched. -/
structure IllegalOpcode where
  /-- The opcode. -/
  opcode : UInt8
  /-- Where it lies. -/
  pc : UInt16
  deriving DecidableEq, Inhabited

/-- The text of a fault. -/
def IllegalOpcode.message (f : IllegalOpcode) : String :=
  "illegal opcode 0x" ++ Hex.byte f.opcode ++ " at " ++ Hex.address f.pc

/-- A program image runs past the last address. -/
structure ImageTooLarge where
  /-- The number of bytes of the image. -/
  length : Nat
  /-- Where the image was to be loaded. -/
  base : UInt16
  deriving DecidableEq, Inhabited

/-- The text of a refused image. -/
def ImageTooLarge.message (e : ImageTooLarge) : String :=
  "image of " ++ toString e.length ++ " bytes does not fit at " ++ Hex.address e.base

namespace Cpu

variable {β : Type} [Bus β]

/-- Whether the next tick dispatches an instruction. -/
def dispatches (s : Cpu β) : Bool :=
  s.pending == 0 && !s.halted

/-- The opcode at the program counter. -/
def opcode (s : Cpu β) : UInt8 :=
  s.read s.pc

/-- The fault that the next tick meets, if any. -/
def fault? (s : Cpu β) : Option IllegalOpcode :=
  if s.dispatches && s.policy == .fail && (Opcode.binding? s.opcode).isNone then
    some ⟨s.opcode, s.pc⟩
  else
    none

/-- Dispatches the opcode at the program counter; an unbound one is passed over in a cycle. -/
def dispatch (s : Cpu β) : Cpu β :=
  match Opcode.binding? s.opcode with
  | some b => execute { s with pc := s.pc + 1 } b
  | none => { s with pc := s.pc + 1, pending := 1 }

/-- Lets one tick pass. -/
def pass (s : Cpu β) : Cpu β :=
  { s with pending := s.pending - 1, cycles := s.cycles + 1 }

/-- One tick, which meets no fault. -/
def tick (s : Cpu β) : Cpu β :=
  if s.dispatches then s.dispatch.pass else s.pass

/-- One tick. -/
def step (s : Cpu β) : Except IllegalOpcode (Cpu β) :=
  match s.fault? with
  | some fault => .error fault
  | none => .ok s.tick

/-- A number of ticks that meet no fault. -/
def ticks (s : Cpu β) : Nat → Cpu β
  | 0 => s
  | n + 1 => s.tick.ticks n

/-- Runs to the end of the instruction in flight, or of the next one if none is in flight, and
counts the ticks.  While the processor is halted this is one tick. -/
def stepInstruction (s : Cpu β) : Except IllegalOpcode (Nat × Cpu β) :=
  match s.fault? with
  | some fault => .error fault
  | none =>
    let s := s.tick
    .ok (1 + s.pending, s.ticks s.pending)

/-- Runs a number of ticks.  A fault ends the run in the state before it. -/
def run (s : Cpu β) : Nat → Cpu β × Option IllegalOpcode
  | 0 => (s, none)
  | n + 1 =>
    match s.fault? with
    | some fault => (s, some fault)
    | none => s.tick.run n

/-- Runs until the processor is halted, for at most a number of ticks. -/
def runToHalt (s : Cpu β) : Nat → Cpu β × Option IllegalOpcode
  | 0 => (s, none)
  | n + 1 =>
    if s.halted then
      (s, none)
    else
      match s.fault? with
      | some fault => (s, some fault)
      | none => s.tick.runToHalt n

/-- Writes a program image through the bus, unless it runs past the last address. -/
def loadImage (s : Cpu β) (image : List UInt8) (base : UInt16) : Except ImageTooLarge (Cpu β) :=
  if 0x10000 < base.toNat + image.length then
    .error ⟨image.length, base⟩
  else
    .ok { s with bus := Bus.writeFrom s.bus base image }

/-- Lets a halted processor dispatch again. -/
def resume (s : Cpu β) : Cpu β :=
  { s with halted := false, flags := { s.flags with brk := false } }

/-- Where a called routine returns to.  It lies at the bottom of the stack page, which a routine
never reaches by pushing. -/
def returnTrap : UInt16 :=
  0x0100

/-- Prepares a call of a routine: the stack is emptied, the return address leads to a break, and
the final return of the routine therefore halts the processor. -/
def call (s : Cpu β) (address : UInt16) : Cpu β :=
  let s := ({ s.resume with sp := 0xFF }.pushWord (returnTrap - 1)).write returnTrap 0
  { s with pc := address, pending := 0 }

end Cpu

end ChipScore
