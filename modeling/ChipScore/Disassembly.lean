import ChipScore.Opcode.Table
import ChipScore.Text.Hex
import ChipScore.Word

/-!
# Disassembly

`Instruction.decode?` reads one instruction from the front of a list of bytes, and `disassemble`
cuts a whole list into instructions.  A byte that starts no instruction, because its opcode is
unbound or its operand is cut off, becomes a data byte, so that every byte is accounted for.
-/

namespace ChipScore

/-- An instruction in a listing. -/
structure Instruction where
  /-- Where the instruction lies. -/
  address : UInt16
  /-- Its first byte. -/
  opcode : UInt8
  /-- The name it is listed under. -/
  mnemonic : String
  /-- How it finds its operand. -/
  mode : AddressingMode
  /-- The bytes behind the opcode. -/
  operands : List UInt8
  /-- Its length in bytes. -/
  size : Nat
  /-- Its base cost. -/
  cycles : Nat
  /-- Whether two operand bytes are listed high byte first. -/
  reversed : Bool
  /-- Whether it lies outside the official instruction set. -/
  undocumented : Bool
  deriving DecidableEq, Inhabited

/-- Why an instruction has no text. -/
inductive ListingError
  /-- No addressing mode has so many operand bytes. -/
  | tooManyOperandBytes
  deriving DecidableEq

/-- The text of an error. -/
def ListingError.message : ListingError → String
  | .tooManyOperandBytes => "instructions carry at most two operand bytes"

namespace Instruction

/-- The name that data bytes are listed under. -/
def dataMnemonic : String :=
  ".byte"

/-- The entry of a byte that starts no instruction. -/
def dataByte (address : UInt16) (value : UInt8) : Instruction where
  address := address
  opcode := value
  mnemonic := dataMnemonic
  mode := .implicit
  operands := []
  size := 1
  cycles := 0
  reversed := false
  undocumented := false

/-- The instruction that a binding makes of an opcode and its operand bytes. -/
def ofBinding (b : Binding) (address : UInt16) (opcode : UInt8) (operands : List UInt8) :
    Instruction where
  address := address
  opcode := opcode
  mnemonic := b.operation.mnemonic
  mode := b.mode
  operands := operands
  size := b.size
  cycles := b.cycles
  reversed := b.reversed
  undocumented := b.undocumented

/-- The instruction at the front of a list of bytes, if the opcode is bound and all its operand
bytes are there. -/
def decode? (address : UInt16) : List UInt8 → Option Instruction
  | [] => none
  | opcode :: rest =>
    match Opcode.binding? opcode with
    | some b =>
      if b.mode.operandBytes ≤ rest.length then
        some (ofBinding b address opcode (rest.take b.mode.operandBytes))
      else
        none
    | none => none

/-- The bytes of an instruction, separated by blanks. -/
def hex (i : Instruction) : String :=
  " ".intercalate ((i.opcode :: i.operands).map Hex.byte)

/-- The digits of the operand, in the order in which they are listed. -/
def digits (i : Instruction) : Except ListingError String :=
  match i.operands with
  | [] => .ok ""
  | [value] => .ok (Hex.byte value)
  | [first, second] =>
    .ok (if i.reversed then Hex.byte second ++ Hex.byte first
      else Hex.byte first ++ Hex.byte second)
  | _ => .error .tooManyOperandBytes

/-- Where a branch goes, counted from the next instruction. -/
def branchTarget (i : Instruction) : UInt16 :=
  i.address + UInt16.ofNat i.size + Word.ofSigned (i.operands.headD 0)

/-- The operand as text, around its digits. -/
def operandText (i : Instruction) (digits : String) : String :=
  match i.mode with
  | .implicit => ""
  | .accumulator => "A"
  | .immediate => "#$" ++ digits
  | .zeroPage | .absolute => "$" ++ digits
  | .zeroPageX | .absoluteX => "$" ++ digits ++ ",X"
  | .zeroPageY | .absoluteY => "$" ++ digits ++ ",Y"
  | .indirect => "($" ++ digits ++ ")"
  | .indirectX => "($" ++ digits ++ ",X)"
  | .indirectY => "($" ++ digits ++ "),Y"
  | .relative => Hex.address i.branchTarget

/-- A mnemonic with its operand. -/
def join (mnemonic operand : String) : String :=
  if operand.isEmpty then mnemonic else mnemonic ++ " " ++ operand

/-- An instruction as assembly text. -/
def text (i : Instruction) : Except ListingError String :=
  if i.mnemonic = dataMnemonic then
    .ok (join i.mnemonic ("$" ++ Hex.byte i.opcode))
  else
    i.digits.map fun digits => join i.mnemonic (i.operandText digits)

end Instruction

/-- Cuts a list of bytes into instructions, the first of which lies at an address. -/
def disassemble (address : UInt16) (bytes : List UInt8) : List Instruction :=
  match bytes with
  | [] => []
  | value :: rest =>
    match Instruction.decode? address (value :: rest) with
    | some i =>
      i :: disassemble (address + UInt16.ofNat i.size) (rest.drop (i.size - 1))
    | none => Instruction.dataByte address value :: disassemble (address + 1) rest
  termination_by bytes.length

end ChipScore
