/-!
# The instruction set

An opcode is bound to an operation, an addressing mode and a base cost in cycles, or it is bound
to nothing.  The operations carry their conventional mnemonics.  What an operation does to the
machine is described by an `Effect`: the sixty-four operations share a score of effects, so that
a fused operation such as `dcp` is visibly the composition of two documented ones.
-/

namespace ChipScore

/-- How an instruction finds its operand. -/
inductive AddressingMode
  | implicit
  | accumulator
  | immediate
  | zeroPage
  | zeroPageX
  | zeroPageY
  | relative
  | absolute
  | absoluteX
  | absoluteY
  | indirect
  | indirectX
  | indirectY
  deriving DecidableEq, Inhabited

/-- The number of operand bytes that follow the opcode. -/
def AddressingMode.operandBytes : AddressingMode → Nat
  | .implicit | .accumulator => 0
  | .absolute | .absoluteX | .absoluteY | .indirect => 2
  | _ => 1

/-- The operations of the instruction set, the undocumented ones last. -/
inductive Operation
  | adc | and | asl | bcc | bcs | beq | bit | bmi
  | bne | bpl | brk | bvc | bvs | clc | cld | cli
  | clv | cmp | cpx | cpy | dec | dex | dey | eor
  | inc | inx | iny | jmp | jsr | lda | ldx | ldy
  | lsr | nop | ora | pha | php | pla | plp | rol
  | ror | rti | rts | sbc | sec | sed | sei | sta
  | stx | sty | tax | tay | tsx | txa | txs | tya
  | dcp | isc | lax | rla | rra | sax | slo | sre
  deriving DecidableEq, Inhabited

/-- The mnemonic of an operation. -/
def Operation.mnemonic : Operation → String
  | .adc => "ADC" | .and => "AND" | .asl => "ASL" | .bcc => "BCC"
  | .bcs => "BCS" | .beq => "BEQ" | .bit => "BIT" | .bmi => "BMI"
  | .bne => "BNE" | .bpl => "BPL" | .brk => "BRK" | .bvc => "BVC"
  | .bvs => "BVS" | .clc => "CLC" | .cld => "CLD" | .cli => "CLI"
  | .clv => "CLV" | .cmp => "CMP" | .cpx => "CPX" | .cpy => "CPY"
  | .dec => "DEC" | .dex => "DEX" | .dey => "DEY" | .eor => "EOR"
  | .inc => "INC" | .inx => "INX" | .iny => "INY" | .jmp => "JMP"
  | .jsr => "JSR" | .lda => "LDA" | .ldx => "LDX" | .ldy => "LDY"
  | .lsr => "LSR" | .nop => "NOP" | .ora => "ORA" | .pha => "PHA"
  | .php => "PHP" | .pla => "PLA" | .plp => "PLP" | .rol => "ROL"
  | .ror => "ROR" | .rti => "RTI" | .rts => "RTS" | .sbc => "SBC"
  | .sec => "SEC" | .sed => "SED" | .sei => "SEI" | .sta => "STA"
  | .stx => "STX" | .sty => "STY" | .tax => "TAX" | .tay => "TAY"
  | .tsx => "TSX" | .txa => "TXA" | .txs => "TXS" | .tya => "TYA"
  | .dcp => "DCP" | .isc => "ISC" | .lax => "LAX" | .rla => "RLA"
  | .rra => "RRA" | .sax => "SAX" | .slo => "SLO" | .sre => "SRE"

/-- The registers that hold a byte. -/
inductive Register
  | a
  | x
  | y
  | sp
  deriving DecidableEq, Inhabited

/-- The registers on the data bus of a load or a store.  A load puts the byte into each of
them, a store drives the conjunction of them. -/
inductive DataRegister
  | a
  | x
  | y
  | ax
  deriving DecidableEq, Inhabited

/-- The flags that a branch can test or an instruction can assign. -/
inductive Flag
  | negative
  | overflow
  | decimal
  | interruptDisable
  | zero
  | carry
  deriving DecidableEq, Inhabited

/-- What combines the accumulator with a byte. -/
inductive Combination
  | add
  | subtract
  | and
  | or
  | xor
  | compare
  deriving DecidableEq, Inhabited

/-- What changes a byte in place. -/
inductive Modification
  | shiftLeft
  | shiftRight
  | rotateLeft
  | rotateRight
  | increment
  | decrement
  deriving DecidableEq, Inhabited

/-- What an operation does. -/
inductive Effect
  /-- Combine the accumulator with the operand. -/
  | combine (c : Combination)
  /-- Compare an index register with the operand. -/
  | compareRegister (r : Register)
  /-- Test the bits of the operand under the accumulator. -/
  | testBits
  /-- Load the operand. -/
  | load (d : DataRegister)
  /-- Store at the operand's address. -/
  | store (d : DataRegister)
  /-- Change the accumulator or the byte at the operand's address. -/
  | modify (m : Modification)
  /-- Change the byte at the operand's address, then combine the accumulator with it. -/
  | modifyCombine (m : Modification) (c : Combination)
  /-- Change an index register. -/
  | modifyRegister (r : Register) (m : Modification)
  /-- Copy one register to another. -/
  | transfer (source target : Register)
  /-- Give a flag a value. -/
  | assign (f : Flag) (value : Bool)
  /-- Branch if a flag has a value. -/
  | branch (f : Flag) (value : Bool)
  /-- Push the accumulator. -/
  | pushAccumulator
  /-- Push the status byte. -/
  | pushStatus
  /-- Pull the accumulator. -/
  | pullAccumulator
  /-- Pull the status byte. -/
  | pullStatus
  /-- Continue at the operand. -/
  | jump
  /-- Call the subroutine at the operand. -/
  | call
  /-- Return from a subroutine. -/
  | returnFromCall
  /-- Return from an interrupt. -/
  | returnFromInterrupt
  /-- Stop dispatching. -/
  | halt
  /-- Read the operand, if there is one, and do nothing with it. -/
  | idle
  deriving DecidableEq, Inhabited

/-- The effect of an operation. -/
def Operation.effect : Operation → Effect
  | .adc => .combine .add
  | .sbc => .combine .subtract
  | .and => .combine .and
  | .ora => .combine .or
  | .eor => .combine .xor
  | .cmp => .combine .compare
  | .cpx => .compareRegister .x
  | .cpy => .compareRegister .y
  | .bit => .testBits
  | .lda => .load .a
  | .ldx => .load .x
  | .ldy => .load .y
  | .lax => .load .ax
  | .sta => .store .a
  | .stx => .store .x
  | .sty => .store .y
  | .sax => .store .ax
  | .asl => .modify .shiftLeft
  | .lsr => .modify .shiftRight
  | .rol => .modify .rotateLeft
  | .ror => .modify .rotateRight
  | .inc => .modify .increment
  | .dec => .modify .decrement
  | .slo => .modifyCombine .shiftLeft .or
  | .rla => .modifyCombine .rotateLeft .and
  | .sre => .modifyCombine .shiftRight .xor
  | .rra => .modifyCombine .rotateRight .add
  | .dcp => .modifyCombine .decrement .compare
  | .isc => .modifyCombine .increment .subtract
  | .inx => .modifyRegister .x .increment
  | .iny => .modifyRegister .y .increment
  | .dex => .modifyRegister .x .decrement
  | .dey => .modifyRegister .y .decrement
  | .tax => .transfer .a .x
  | .tay => .transfer .a .y
  | .txa => .transfer .x .a
  | .tya => .transfer .y .a
  | .tsx => .transfer .sp .x
  | .txs => .transfer .x .sp
  | .clc => .assign .carry false
  | .sec => .assign .carry true
  | .cli => .assign .interruptDisable false
  | .sei => .assign .interruptDisable true
  | .cld => .assign .decimal false
  | .sed => .assign .decimal true
  | .clv => .assign .overflow false
  | .bpl => .branch .negative false
  | .bmi => .branch .negative true
  | .bvc => .branch .overflow false
  | .bvs => .branch .overflow true
  | .bcc => .branch .carry false
  | .bcs => .branch .carry true
  | .bne => .branch .zero false
  | .beq => .branch .zero true
  | .pha => .pushAccumulator
  | .php => .pushStatus
  | .pla => .pullAccumulator
  | .plp => .pullStatus
  | .jmp => .jump
  | .jsr => .call
  | .rts => .returnFromCall
  | .rti => .returnFromInterrupt
  | .brk => .halt
  | .nop => .idle

/-- What an opcode is bound to. -/
structure Binding where
  /-- The operation that the opcode names. -/
  operation : Operation
  /-- How the instruction finds its operand. -/
  mode : AddressingMode
  /-- The cost before page-crossing and branch penalties. -/
  cycles : Nat
  /-- Whether the opcode lies outside the official instruction set. -/
  undocumented : Bool
  deriving DecidableEq, Inhabited

/-- The length of an instruction, its opcode included. -/
def Binding.size (b : Binding) : Nat :=
  1 + b.mode.operandBytes

/-- Two operand bytes are stored low byte first and written high byte first. -/
def Binding.reversed (b : Binding) : Bool :=
  b.mode.operandBytes == 2

end ChipScore
