import ChipScore.Cpu.Arithmetic
import ChipScore.Opcode.Table

/-!
# Executing one instruction

`Cpu.execute` carries out a binding on a processor whose program counter already stands behind
the opcode.  The operand bytes follow there, and the next instruction follows them, whatever the
addressing mode.  The whole cost of the instruction is left in `pending`.
-/

namespace ChipScore

/-- Where an instruction finds its operand. -/
structure Operand where
  /-- The address of the operand. -/
  address : UInt16
  /-- Whether adding an index moved the address to another page. -/
  crossed : Bool
  deriving DecidableEq, Inhabited

namespace Operand

/-- An operand at an address that no index has moved. -/
def direct (address : UInt16) : Operand :=
  ⟨address, false⟩

/-- An operand at an index from a base address. -/
def indexed (base : UInt16) (index : UInt8) : Operand :=
  let address := base + index.toUInt16
  ⟨address, !Word.samePage base address⟩

/-- The cycle that an indexed read pays for another page. -/
def penalty (o : Operand) : Nat :=
  if o.crossed then 1 else 0

end Operand

namespace Cpu

variable {β : Type} [Bus β]

/-- The word at an address of page zero; the second byte's address wraps within the page. -/
def pointer (s : Cpu β) (address : UInt8) : UInt16 :=
  Word.ofBytes (s.read address.toUInt16) (s.read (address + 1).toUInt16)

/-- The operand byte at the program counter. -/
def operandByte (s : Cpu β) : UInt8 :=
  s.read s.pc

/-- The operand word at the program counter. -/
def operandWord (s : Cpu β) : UInt16 :=
  Bus.readWord s.bus s.pc

/-- Where the instruction whose operand bytes lie at the program counter finds its operand.  The
implicit, accumulator, relative and indirect modes have no operand in memory. -/
def operand? (s : Cpu β) : AddressingMode → Option Operand
  | .immediate => some (.direct s.pc)
  | .zeroPage => some (.direct s.operandByte.toUInt16)
  | .zeroPageX => some (.direct (s.operandByte + s.x).toUInt16)
  | .zeroPageY => some (.direct (s.operandByte + s.y).toUInt16)
  | .absolute => some (.direct s.operandWord)
  | .absoluteX => some (.indexed s.operandWord s.x)
  | .absoluteY => some (.indexed s.operandWord s.y)
  | .indirectX => some (.direct (s.pointer (s.operandByte + s.x)))
  | .indirectY => some (.indexed (s.pointer s.operandByte) s.y)
  | .implicit | .accumulator | .relative | .indirect => none

/-- Where a jump goes.  An indirect jump reads both bytes of its target from one page, so a
pointer at the end of a page wraps to its start. -/
def jumpTarget (s : Cpu β) : AddressingMode → UInt16
  | .indirect =>
    let low := s.operandWord
    let high := Word.ofBytes (Word.low low + 1) (Word.high low)
    Word.ofBytes (s.read low) (s.read high)
  | _ => s.operandWord

/-- Moves the program counter past the operand bytes. -/
def skipOperand (s : Cpu β) (mode : AddressingMode) : Cpu β :=
  { s with pc := s.pc + UInt16.ofNat mode.operandBytes }

/-- Leaves the cost of the instruction to be spent. -/
def spend (s : Cpu β) (cycles : Nat) : Cpu β :=
  { s with pending := cycles }

/-- The value of a register. -/
def get (s : Cpu β) : Register → UInt8
  | .a => s.a
  | .x => s.x
  | .y => s.y
  | .sp => s.sp

/-- Gives a register a value. -/
def put (s : Cpu β) (r : Register) (value : UInt8) : Cpu β :=
  match r with
  | .a => { s with a := value }
  | .x => { s with x := value }
  | .y => { s with y := value }
  | .sp => { s with sp := value }

/-- Gives a register a value and describes it by the flags. -/
def putDescribed (s : Cpu β) (r : Register) (value : UInt8) : Cpu β :=
  { s.put r value with flags := s.flags.describe value }

/-- Combines the accumulator with a byte. -/
def combine (s : Cpu β) (c : Combination) (value : UInt8) : Cpu β :=
  let (a, flags) := c.apply s.flags s.a value
  { s with a := a, flags := flags }

/-- Loads a byte into the registers on the data bus. -/
def load (s : Cpu β) (d : DataRegister) (value : UInt8) : Cpu β :=
  let flags := s.flags.describe value
  match d with
  | .a => { s with a := value, flags := flags }
  | .x => { s with x := value, flags := flags }
  | .y => { s with y := value, flags := flags }
  | .ax => { s with a := value, x := value, flags := flags }

/-- The byte that the registers on the data bus drive. -/
def driven (s : Cpu β) : DataRegister → UInt8
  | .a => s.a
  | .x => s.x
  | .y => s.y
  | .ax => s.a &&& s.x

/-- Changes a byte of memory, with a single write of the new byte. -/
def modifyAt (s : Cpu β) (m : Modification) (address : UInt16) : Cpu β :=
  let (value, flags) := m.apply s.flags (s.read address)
  { s with flags := flags, bus := Bus.write s.bus address value }

/-- Branches by the operand byte, which counts from the next instruction.  A taken branch costs a
cycle, and another if it leaves the page of the next instruction. -/
def branch (s : Cpu β) (taken : Bool) (cycles : Nat) : Cpu β :=
  let next := s.pc + 1
  if taken then
    let target := next + Word.ofSigned s.operandByte
    { s with
      pc := target
      pending := cycles + 1 + (if Word.samePage next target then 0 else 1) }
  else
    { s with pc := next, pending := cycles }

/-- Carries out an effect on the processor whose operand bytes lie at the program counter. -/
def perform (s : Cpu β) (b : Binding) : Effect → Cpu β
  | .combine c =>
    match s.operand? b.mode with
    | some o => ((s.skipOperand b.mode).combine c (s.read o.address)).spend (b.cycles + o.penalty)
    | none => s
  | .compareRegister r =>
    match s.operand? b.mode with
    | some o =>
      { (s.skipOperand b.mode).spend b.cycles with
        flags := s.flags.compare (s.get r) (s.read o.address) }
    | none => s
  | .testBits =>
    match s.operand? b.mode with
    | some o =>
      { (s.skipOperand b.mode).spend b.cycles with
        flags := s.flags.testBits s.a (s.read o.address) }
    | none => s
  | .load d =>
    match s.operand? b.mode with
    | some o => ((s.skipOperand b.mode).load d (s.read o.address)).spend (b.cycles + o.penalty)
    | none => s
  | .store d =>
    match s.operand? b.mode with
    | some o => ((s.skipOperand b.mode).write o.address (s.driven d)).spend b.cycles
    | none => s
  | .modify m =>
    match s.operand? b.mode with
    | some o => ((s.skipOperand b.mode).modifyAt m o.address).spend b.cycles
    | none =>
      let (value, flags) := m.apply s.flags s.a
      { s with a := value, flags := flags, pending := b.cycles }
  | .modifyCombine m c =>
    match s.operand? b.mode with
    | some o =>
      let (value, flags) := m.apply s.flags (s.read o.address)
      let (a, flags) := c.apply flags s.a value
      { (s.skipOperand b.mode).write o.address value with
        a := a, flags := flags, pending := b.cycles }
    | none => s
  | .modifyRegister r m => (s.putDescribed r (m.result false (s.get r))).spend b.cycles
  | .transfer source .sp => (s.put .sp (s.get source)).spend b.cycles
  | .transfer source target => (s.putDescribed target (s.get source)).spend b.cycles
  | .assign f value => { s with flags := s.flags.assign f value, pending := b.cycles }
  | .branch f value => s.branch (s.flags.get f == value) b.cycles
  | .pushAccumulator => (s.push s.a).spend b.cycles
  | .pushStatus => (s.push { s.flags with brk := true }.toByte).spend b.cycles
  | .pullAccumulator => (s.pop.putDescribed .a s.top).spend b.cycles
  | .pullStatus => { s.pop with flags := s.flags.restore s.top, pending := b.cycles }
  | .jump => { s with pc := s.jumpTarget b.mode, pending := b.cycles }
  | .call =>
    let target := s.operandWord
    { s.pushWord (s.pc + 1) with pc := target, pending := b.cycles }
  | .returnFromCall =>
    let low := s.top
    let s := s.pop
    let high := s.top
    { s.pop with pc := Word.ofBytes low high + 1, pending := b.cycles }
  | .returnFromInterrupt =>
    let flags := s.flags.restore s.top
    let s := s.pop
    let low := s.top
    let s := s.pop
    let high := s.top
    { s.pop with pc := Word.ofBytes low high, flags := flags, pending := b.cycles }
  | .halt => { s with flags := { s.flags with brk := true }, halted := true, pending := b.cycles }
  | .idle =>
    match s.operand? b.mode with
    | some o => (s.skipOperand b.mode).spend (b.cycles + o.penalty)
    | none => s.spend b.cycles

/-- Carries out a binding on the processor whose program counter stands behind the opcode. -/
def execute (s : Cpu β) (b : Binding) : Cpu β :=
  s.perform b b.operation.effect

end Cpu

end ChipScore
