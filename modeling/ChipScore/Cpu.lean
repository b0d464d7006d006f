import ChipScore.Bus

/-!
# The processor's state

The registers, the flags and the counters of the processor, next to the bus it drives.  The
program counter and the stack pointer wrap; the stack occupies the page at `$0100`.
-/

namespace ChipScore

/-- The processor's flags. -/
structure Flags where
  /-- Bit 7 of the last result. -/
  negative : Bool := false
  /-- Signed overflow. -/
  overflow : Bool := false
  /-- The processor was stopped by a break. -/
  brk : Bool := false
  /-- Decimal mode, which is stored and never consulted. -/
  decimal : Bool := false
  /-- Interrupts are masked, which is stored and never consulted. -/
  interruptDisable : Bool := false
  /-- The last result is zero. -/
  zero : Bool := false
  /-- Carry out of bit 7, or no borrow. -/
  carry : Bool := false
  deriving DecidableEq, Inhabited

namespace Flags

/-- The value of a flag at its place in the status byte. -/
def weight (flag : Bool) (mask : UInt8) : UInt8 :=
  if flag then mask else 0

/-- The status byte, `NV-BDIZC` from the top; bit 5 is always set. -/
def toByte (f : Flags) : UInt8 :=
  0x20 ||| weight f.negative 0x80 ||| weight f.overflow 0x40 ||| weight f.brk 0x10
    ||| weight f.decimal 0x08 ||| weight f.interruptDisable 0x04 ||| weight f.zero 0x02
    ||| weight f.carry 0x01

/-- The flags of a status byte; bit 5 is ignored. -/
def ofByte (b : UInt8) : Flags where
  negative := b &&& 0x80 != 0
  overflow := b &&& 0x40 != 0
  brk := b &&& 0x10 != 0
  decimal := b &&& 0x08 != 0
  interruptDisable := b &&& 0x04 != 0
  zero := b &&& 0x02 != 0
  carry := b &&& 0x01 != 0

/-- The flags of a status byte, with the break flag kept. -/
def restore (f : Flags) (b : UInt8) : Flags :=
  { ofByte b with brk := f.brk }

/-- Describes a result by the zero and negative flags. -/
def describe (f : Flags) (result : UInt8) : Flags :=
  { f with zero := result == 0, negative := result &&& 0x80 != 0 }

end Flags

/-- What happens to an opcode that is bound to no operation. -/
inductive UnboundPolicy
  /-- Dispatching it is a fault. -/
  | fail
  /-- It is passed over in one cycle. -/
  | skip
  deriving DecidableEq, Inhabited

/-- The processor and its bus. -/
structure Cpu (β : Type) where
  /-- The accumulator. -/
  a : UInt8 := 0
  /-- The first index register. -/
  x : UInt8 := 0
  /-- The second index register. -/
  y : UInt8 := 0
  /-- The stack pointer, an offset into the stack page. -/
  sp : UInt8 := 0xFD
  /-- The address of the next byte to fetch. -/
  pc : UInt16
  /-- The flags. -/
  flags : Flags := ⟨false, false, false, false, true, false, false⟩
  /-- The ticks spent so far. -/
  cycles : Nat := 0
  /-- The ticks that the instruction in flight still takes. -/
  pending : Nat := 0
  /-- Whether dispatching is stopped. -/
  halted : Bool := false
  /-- What happens to unbound opcodes. -/
  policy : UnboundPolicy := .fail
  /-- What the processor reads and writes. -/
  bus : β

namespace Cpu

variable {β : Type} [Bus β]

/-- The address of the word that a reset loads into the program counter. -/
def resetVector : UInt16 :=
  0xFFFC

/-- The processor after a reset. -/
def reset (bus : β) (policy : UnboundPolicy) : Cpu β :=
  { pc := Bus.readWord bus resetVector, policy := policy, bus := bus }

/-- The status byte. -/
def status (s : Cpu β) : UInt8 :=
  s.flags.toByte

/-- The byte at an address. -/
def read (s : Cpu β) (address : UInt16) : UInt8 :=
  Bus.read s.bus address

/-- Writes a byte at an address. -/
def write (s : Cpu β) (address : UInt16) (value : UInt8) : Cpu β :=
  { s with bus := Bus.write s.bus address value }

/-- The address in the stack page that a stack pointer names. -/
def stackAddress (sp : UInt8) : UInt16 :=
  0x0100 ||| sp.toUInt16

/-- Writes a byte at the stack pointer, then moves the pointer down. -/
def push (s : Cpu β) (value : UInt8) : Cpu β :=
  { s with bus := Bus.write s.bus (stackAddress s.sp) value, sp := s.sp - 1 }

/-- Pushes a word, high byte first. -/
def pushWord (s : Cpu β) (value : UInt16) : Cpu β :=
  (s.push (Word.high value)).push (Word.low value)

/-- The byte that the next pull yields. -/
def top (s : Cpu β) : UInt8 :=
  s.read (stackAddress (s.sp + 1))

/-- Moves the stack pointer up, past the byte that it yields. -/
def pop (s : Cpu β) : Cpu β :=
  { s with sp := s.sp + 1 }

end Cpu

end ChipScore
