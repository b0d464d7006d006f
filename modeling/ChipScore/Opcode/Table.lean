import ChipScore.Opcode

/-!
# The opcode table

The table has sixteen rows of sixteen opcodes: 151 official ones, 80 undocumented ones that
music players use, and 25 that are bound to nothing.  Decoding, execution, costs and the
disassembly all read this one table.
-/

namespace ChipScore.Opcode

/-- A row of the official instruction set. -/
def official (operation : Operation) (mode : AddressingMode) (cycles : Nat) : Option Binding :=
  some ⟨operation, mode, cycles, false⟩

/-- A row outside the official instruction set. -/
def undocumented (operation : Operation) (mode : AddressingMode) (cycles : Nat) : Option Binding :=
  some ⟨operation, mode, cycles, true⟩

/-- The bindings of the opcodes: one row for each high digit, one column for each low digit. -/
def table : Vector (Vector (Option Binding) 16) 16 := #v[
  #v[
    official .brk .implicit 7, official .ora .indirectX 6, none, undocumented .slo .indirectX 8,
    undocumented .nop .zeroPage 3, official .ora .zeroPage 3, official .asl .zeroPage 5,
    undocumented .slo .zeroPage 5, official .php .implicit 3, official .ora .immediate 2,
    official .asl .accumulator 2, none, undocumented .nop .absolute 4,
    official .ora .absolute 4, official .asl .absolute 6, undocumented .slo .absolute 6],
  #v[
    official .bpl .relative 2, official .ora .indirectY 5, none, undocumented .slo .indirectY 8,
    undocumented .nop .zeroPageX 4, official .ora .zeroPageX 4, official .asl .zeroPageX 6,
    undocumented .slo .zeroPageX 6, official .clc .implicit 2, official .ora .absoluteY 4,
    undocumented .nop .implicit 2, undocumented .slo .absoluteY 7,
    undocumented .nop .absoluteX 4, official .ora .absoluteX 4, official .asl .absoluteX 7,
    undocumented .slo .absoluteX 7],
  #v[
    official .jsr .absolute 6, official .and .indirectX 6, none, undocumented .rla .indirectX 8,
    official .bit .zeroPage 3, official .and .zeroPage 3, official .rol .zeroPage 5,
    undocumented .rla .zeroPage 5, official .plp .implicit 4, official .and .immediate 2,
    official .rol .accumulator 2, none, official .bit .absolute 4, official .and .absolute 4,
    official .rol .absolute 6, undocumented .rla .absolute 6],
  #v[
    official .bmi .relative 2, official .and .indirectY 5, none, undocumented .rla .indirectY 8,
    undocumented .nop .zeroPageX 4, official .and .zeroPageX 4, official .rol .zeroPageX 6,
    undocumented .rla .zeroPageX 6, official .sec .implicit 2, official .and .absoluteY 4,
    undocumented .nop .implicit 2, undocumented .rla .absoluteY 7,
    undocumented .nop .absoluteX 4, official .and .absoluteX 4, official .rol .absoluteX 7,
    undocumented .rla .absoluteX 7],
  #v[
    official .rti .implicit 6, official .eor .indirectX 6, none, undocumented .sre .indirectX 8,
    undocumented .nop .zeroPage 3, official .eor .zeroPage 3, official .lsr .zeroPage 5,
    undocumented .sre .zeroPage 5, official .pha .implicit 3, official .eor .immediate 2,
    official .lsr .accumulator 2, none, official .jmp .absolute 3, official .eor .absolute 4,
    official .lsr .absolute 6, undocumented .sre .absolute 6],
  #v[
    official .bvc .relative 2, official .eor .indirectY 5, none, undocumented .sre .indirectY 8,
    undocumented .nop .zeroPageX 4, official .eor .zeroPageX 4, official .lsr .zeroPageX 6,
    undocumented .sre .zeroPageX 6, official .cli .implicit 2, official .eor .absoluteY 4,
    undocumented .nop .implicit 2, undocumented .sre .absoluteY 7,
    undocumented .nop .absoluteX 4, official .eor .absoluteX 4, official .lsr .absoluteX 7,
    undocumented .sre .absoluteX 7],
  #v[
    official .rts .implicit 6, official .adc .indirectX 6, none, undocumented .rra .indirectX 8,
    undocumented .nop .zeroPage 3, official .adc .zeroPage 3, official .ror .zeroPage 5,
    undocumented .rra .zeroPage 5, official .pla .implicit 4, official .adc .immediate 2,
    official .ror .accumulator 2, none, official .jmp .indirect 5, official .adc .absolute 4,
    official .ror .absolute 6, undocumented .rra .absolute 6],
  #v[
    official .bvs .relative 2, official .adc .indirectY 5, none, undocumented .rra .indirectY 8,
    undocumented .nop .zeroPageX 4, official .adc .zeroPageX 4, official .ror .zeroPageX 6,
    undocumented .rra .zeroPageX 6, official .sei .implicit 2, official .adc .absoluteY 4,
    undocumented .nop .implicit 2, undocumented .rra .absoluteY 7,
    undocumented .nop .absoluteX 4, official .adc .absoluteX 4, official .ror .absoluteX 7,
    undocumented .rra .absoluteX 7],
  #v[
    undocumented .nop .immediate 2, official .sta .indirectX 6, undocumented .nop .immediate 2,
    undocumented .sax .indirectX 6, official .sty .zeroPage 3, official .sta .zeroPage 3,
    official .stx .zeroPage 3, undocumented .sax .zeroPage 3, official .dey .implicit 2,
    undocumented .nop .immediate 2, official .txa .implicit 2, none, official .sty .absolute 4,
    official .sta .absolute 4, official .stx .absolute 4, undocumented .sax .absolute 4],
  #v[
    official .bcc .relative 2, official .sta .indirectY 6, none, none,
    official .sty .zeroPageX 4, official .sta .zeroPageX 4, official .stx .zeroPageY 4,
    undocumented .sax .zeroPageY 4, official .tya .implicit 2, official .sta .absoluteY 5,
    official .txs .implicit 2, none, none, official .sta .absoluteX 5, none, none],
  #v[
    official .ldy .immediate 2, official .lda .indirectX 6, official .ldx .immediate 2,
    undocumented .lax .indirectX 6, official .ldy .zeroPage 3, official .lda .zeroPage 3,
    official .ldx .zeroPage 3, undocumented .lax .zeroPage 3, official .tay .implicit 2,
    official .lda .immediate 2, official .tax .implicit 2, none, official .ldy .absolute 4,
    official .lda .absolute 4, official .ldx .absolute 4, undocumented .lax .absolute 4],
  #v[
    official .bcs .relative 2, official .lda .indirectY 5, none, undocumented .lax .indirectY 5,
    official .ldy .zeroPageX 4, official .lda .zeroPageX 4, official .ldx .zeroPageY 4,
    undocumented .lax .zeroPageY 4, official .clv .implicit 2, official .lda .absoluteY 4,
    official .tsx .implicit 2, none, official .ldy .absoluteX 4, official .lda .absoluteX 4,
    official .ldx .absoluteY 4, undocumented .lax .absoluteY 4],
  #v[
    official .cpy .immediate 2, official .cmp .indirectX 6, undocumented .nop .immediate 2,
    undocumented .dcp .indirectX 8, official .cpy .zeroPage 3, official .cmp .zeroPage 3,
    official .dec .zeroPage 5, undocumented .dcp .zeroPage 5, official .iny .implicit 2,
    official .cmp .immediate 2, official .dex .implicit 2, none, official .cpy .absolute 4,
    official .cmp .absolute 4, official .dec .absolute 6, undocumented .dcp .absolute 6],
  #v[
    official .bne .relative 2, official .cmp .indirectY 5, none, undocumented .dcp .indirectY 8,
    undocumented .nop .zeroPageX 4, official .cmp .zeroPageX 4, official .dec .zeroPageX 6,
    undocumented .dcp .zeroPageX 6, official .cld .implicit 2, official .cmp .absoluteY 4,
    undocumented .nop .implicit 2, undocumented .dcp .absoluteY 7,
    undocumented .nop .absoluteX 4, official .cmp .absoluteX 4, official .dec .absoluteX 7,
    undocumented .dcp .absoluteX 7],
  #v[
    official .cpx .immediate 2, official .sbc .indirectX 6, undocumented .nop .immediate 2,
    undocumented .isc .indirectX 8, official .cpx .zeroPage 3, official .sbc .zeroPage 3,
    official .inc .zeroPage 5, undocumented .isc .zeroPage 5, official .inx .implicit 2,
    official .sbc .immediate 2, official .nop .implicit 2, undocumented .sbc .immediate 2,
    official .cpx .absolute 4, official .sbc .absolute 4, official .inc .absolute 6,
    undocumented .isc .absolute 6],
  #v[
    official .beq .relative 2, official .sbc .indirectY 5, none, undocumented .isc .indirectY 8,
    undocumented .nop .zeroPageX 4, official .sbc .zeroPageX 4, official .inc .zeroPageX 6,
    undocumented .isc .zeroPageX 6, official .sed .implicit 2, official .sbc .absoluteY 4,
    undocumented .nop .implicit 2, undocumented .isc .absoluteY 7,
    undocumented .nop .absoluteX 4, official .sbc .absoluteX 4, official .inc .absoluteX 7,
    undocumented .isc .absoluteX 7]]

/-- What an opcode is bound to, if anything. -/
def binding? (opcode : UInt8) : Option Binding :=
  (table.get (Fin.ofNat 16 (opcode.toNat / 16))).get (Fin.ofNat 16 opcode.toNat)

/-- The mnemonic of an opcode; an unbound one has none and is listed with question marks. -/
def mnemonic (opcode : UInt8) : String :=
  match binding? opcode with
  | some b => b.operation.mnemonic
  | none => "???"

/-- The addressing mode of an opcode; an unbound one takes no operand. -/
def mode (opcode : UInt8) : AddressingMode :=
  match binding? opcode with
  | some b => b.mode
  | none => .implicit

/-- The length of an opcode's instructions; an unbound one stands alone. -/
def size (opcode : UInt8) : Nat :=
  match binding? opcode with
  | some b => b.size
  | none => 1

/-- Whether an opcode's operand bytes are written high byte first. -/
def isReversed (opcode : UInt8) : Bool :=
  match binding? opcode with
  | some b => b.reversed
  | none => false

/-- The base cost of an opcode; an unbound one has none. -/
def cycles (opcode : UInt8) : Nat :=
  match binding? opcode with
  | some b => b.cycles
  | none => 0

/-- Whether an opcode is bound to an operation outside the official instruction set. -/
def isUndocumented (opcode : UInt8) : Bool :=
  match binding? opcode with
  | some b => b.undocumented
  | none => false

end ChipScore.Opcode
