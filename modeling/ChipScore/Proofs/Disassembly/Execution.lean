import Mathlib.Tactic
import ChipScore.Bus.AddressSpace
import ChipScore.Bus.Ram
import ChipScore.Disassembly
import ChipScore.Proofs.Cpu.Faults
import ChipScore.Proofs.Text.Hex

/-!
# What is listed is what is executed

The disassembly reads the length of an instruction off the opcode table and computes where a branch
goes from the bytes of the listing.  The processor never looks at a length: each effect moves the
program counter past the operand bytes that it has used.  `perform_pc` says that the two come to the
same for all effects that do not redirect the program counter, because a well-formed binding has a
mode that suits its effect.

For branches, jumps and calls the text of the listing ends with the address at which execution goes
on, and since addresses can be read back from their texts (`Instruction.names_iff`) that text names
no other.
-/

namespace ChipScore

/-- Whether an effect puts an address into the program counter. -/
def Effect.redirects : Effect → Bool
  | branch _ _ | jump | call | returnFromCall | returnFromInterrupt => true
  | _ => false

namespace Operation

/-- The conditional branches. -/
def isBranch (operation : Operation) : Bool :=
  operation ∈ [.bpl, .bmi, .bvc, .bvs, .bcc, .bcs, .bne, .beq]

/-- The operations that always go on at an address of their own. -/
def isJump (operation : Operation) : Bool :=
  operation ∈ [.jmp, .jsr, .rts, .rti]

/-- The effect of an operation redirects the program counter just if the operation is a branch or a
jump. -/
lemma redirects_effect (operation : Operation) :
    operation.effect.redirects = (operation.isBranch || operation.isJump) := by
  cases operation <;> rfl

/-- A branch tests the flag that decides whether it is taken. -/
lemma exists_effect_of_isBranch {operation : Operation} (h : operation.isBranch = true) :
    ∃ f value, operation.effect = .branch f value ∧
      ∀ {β : Type} (s : Cpu β), (s.flags.get f == value) = s.takes operation := by
  cases operation <;> first
    | exact ⟨_, _, rfl, fun s => by simp [Cpu.takes, Flags.get]⟩
    | cases h

end Operation

namespace Instruction

/-- The text of an instruction is its mnemonic and an address. -/
def Names (i : Instruction) (target : UInt16) : Prop :=
  i.text = .ok (i.mnemonic ++ " " ++ Hex.address target)

/-- A text with an address in it names no other address. -/
lemma names_iff {i : Instruction} {target : UInt16} (h : i.Names target) (address : UInt16) :
    i.Names address ↔ address = target := by
  constructor
  · intro haddress
    have htext := Except.ok.inj (h.symm.trans haddress)
    refine (Hex.address_injective (String.ext ?_)).symm
    simpa using congrArg String.toList htext
  · rintro rfl
    exact h

/-- No operation has the mnemonic of a data byte. -/
lemma mnemonic_ne_dataMnemonic (operation : Operation) : operation.mnemonic ≠ dataMnemonic := by
  cases operation <;> decide

/-- Two operand bytes at most have a text. -/
lemma exists_text {i : Instruction} (h : i.operands.length ≤ 2) :
    ∃ text, i.text = .ok text := by
  have hdigits : ∃ digits, i.digits = .ok digits := by
    unfold digits
    match i.operands, h with
    | [], _ => exact ⟨_, rfl⟩
    | [_], _ => exact ⟨_, rfl⟩
    | [_, _], _ => exact ⟨_, rfl⟩
    | _ :: _ :: _ :: _, h => simp at h
  obtain ⟨digits, hdigits⟩ := hdigits
  unfold text
  split
  · exact ⟨_, rfl⟩
  · rw [hdigits]
    exact ⟨_, rfl⟩

/-- A text is the mnemonic and the address that the operand is written as. -/
lemma names_of_operandText {i : Instruction} {operation : Operation} {digits : String}
    {target : UInt16} (hmnemonic : i.mnemonic = operation.mnemonic) (hdigits : i.digits = .ok digits)
    (htext : i.operandText digits = Hex.address target) : i.Names target := by
  have hnonempty : (Hex.address target).isEmpty = false := by
    simp [Hex.address, String.isEmpty_eq_false_iff]
  rw [Names, text, if_neg (hmnemonic ▸ mnemonic_ne_dataMnemonic operation), hdigits]
  change Except.ok (join i.mnemonic (i.operandText digits)) = _
  rw [htext, join, hnonempty]
  rfl

/-- A branch is listed with the address it goes to. -/
lemma names_of_relative {b : Binding} (hmode : b.mode = .relative) (address : UInt16)
    (opcode offset : UInt8) :
    (ofBinding b address opcode [offset]).Names (address + 2 + Word.ofSigned offset) := by
  refine names_of_operandText rfl rfl ?_
  simp only [operandText, branchTarget, ofBinding, Binding.size, hmode]
  rfl

/-- A jump or a call is listed with the word behind the opcode. -/
lemma names_of_absolute {b : Binding} (hmode : b.mode = .absolute) (address : UInt16)
    (opcode low high : UInt8) :
    (ofBinding b address opcode [low, high]).Names (Word.ofBytes low high) := by
  have hdigits : (ofBinding b address opcode [low, high]).digits =
      .ok (Hex.byte high ++ Hex.byte low) := by
    simp only [digits, ofBinding, Binding.reversed, hmode]
    rfl
  refine names_of_operandText rfl hdigits ?_
  rw [Hex.address, Hex.word_ofBytes]
  simp only [operandText, ofBinding, hmode]

/-- Three bytes are enough for an instruction. -/
lemma decode?_threeBytes (address : UInt16) (opcode first second : UInt8) :
    decode? address [opcode, first, second] = (Opcode.binding? opcode).map fun b =>
      ofBinding b address opcode ([first, second].take b.mode.operandBytes) := by
  have hle (mode : AddressingMode) : mode.operandBytes ≤ 2 := by
    cases mode <;> decide
  rw [decode?]
  cases Opcode.binding? opcode with
  | none => rfl
  | some b => exact if_pos (hle b.mode)

end Instruction

namespace Cpu

variable {β : Type}

lemma put_pc (s : Cpu β) {r : Register} (value : UInt8) : (s.put r value).pc = s.pc := by
  cases r <;> rfl

lemma load_pc (s : Cpu β) (d : DataRegister) (value : UInt8) : (s.load d value).pc = s.pc := by
  cases d <;> rfl

variable [Bus β]

/-- The bytes from the program counter on, as many as an instruction can have. -/
def upcoming (s : Cpu β) : List UInt8 :=
  [s.read s.pc, s.read (s.pc + 1), s.read (s.pc + 2)]

/-- An effect that does not redirect the program counter moves it past the operand bytes. -/
lemma perform_pc (s : Cpu β) {b : Binding} {e : Effect} (hfits : e.fits b.mode = true)
    (h : e.redirects = false) :
    (s.perform b e).pc = s.pc + UInt16.ofNat b.mode.operandBytes := by
  have hzero (hmode : b.mode.operandBytes = 0) :
      s.pc + UInt16.ofNat b.mode.operandBytes = s.pc := by
    rw [hmode]
    exact UInt16.add_zero s.pc
  have himplicit (hmode : (b.mode == .implicit) = true) :
      s.pc + UInt16.ofNat b.mode.operandBytes = s.pc :=
    hzero (by rw [beq_iff_eq.mp hmode]; rfl)
  cases e with
  | combine | compareRegister | testBits | store | modifyCombine =>
    obtain ⟨o, ho⟩ := s.exists_operand? hfits
    simp only [perform, ho]
    rfl
  | load d =>
    obtain ⟨o, ho⟩ := s.exists_operand? hfits
    simp only [perform, ho]
    exact load_pc _ d _
  | modify m =>
    -- without an operand in memory the accumulator is changed
    cases hoperand : b.mode.hasOperand with
    | true =>
      obtain ⟨o, ho⟩ := s.exists_operand? hoperand
      simp only [perform, ho]
      rfl
    | false =>
      have hmode : b.mode = .accumulator := by simpa [Effect.fits, hoperand] using hfits
      rw [hzero (by rw [hmode]; rfl), perform, hmode]
      rfl
  | idle =>
    cases hoperand : b.mode.hasOperand with
    | true =>
      obtain ⟨o, ho⟩ := s.exists_operand? hoperand
      simp only [perform, ho]
      rfl
    | false =>
      have hmode : b.mode = .implicit := by simpa [Effect.fits, hoperand] using hfits
      rw [hzero (by rw [hmode]; rfl), perform, hmode]
      rfl
  | branch | jump | call | returnFromCall | returnFromInterrupt => cases h
  | transfer source target =>
    rw [himplicit hfits]
    cases target <;> rfl
  | modifyRegister r m =>
    rw [himplicit hfits]
    exact put_pc s _
  | _ => rw [himplicit hfits]; rfl

/-- The program counter after a branch. -/
lemma perform_branch_pc (s : Cpu β) (b : Binding) (f : Flag) (value : Bool) :
    (s.fetched.perform b (.branch f value)).pc =
      if s.flags.get f == value then s.branchTarget else s.pc + 2 := by
  have hnext : s.pc + 1 + 1 = s.pc + 2 := UInt16.add_assoc _ _ _
  simp only [perform, branch, fetched, branchTarget, operandByte, read, hnext]
  split <;> rfl

/-- Dispatching a bound opcode, in terms of the state that an instruction step leads to. -/
lemma stepInstruction_of_binding? {s : Cpu β} {b : Binding} (hpending : s.pending = 0)
    (hhalted : s.halted = false) (hbound : Opcode.binding? s.opcode = some b) :
    ∃ t, s.stepInstruction = .ok (s.cost b, t) ∧
      t.pc = (s.fetched.perform b b.operation.effect).pc :=
  ⟨_, stepInstruction_eq_perform hpending hhalted hbound, rfl⟩

/-- An instruction costs its own cycles and at most two more: one for a page that is crossed, and
one for a branch that is taken. -/
lemma cost_bounds (s : Cpu β) (b : Binding) : b.cycles ≤ s.cost b ∧ s.cost b ≤ b.cycles + 2 := by
  have hle := s.surcharge_le b.mode b.operation.effect
  have hbound : b.operation.effect.surchargeBound b.mode ≤ 2 := by
    unfold Effect.surchargeBound
    split
    · exact le_rfl
    · split_ifs <;> omega
  rw [cost_eq]
  omega

/-- The operand word of a fetched instruction lies behind its opcode. -/
lemma fetched_operandWord (s : Cpu β) :
    s.fetched.operandWord = Word.ofBytes (s.read (s.pc + 1)) (s.read (s.pc + 2)) := by
  have hnext : s.pc + 1 + 1 = s.pc + 2 := UInt16.add_assoc _ _ _
  simp only [operandWord, Bus.readWord, fetched, hnext]
  rfl

/-- An absolute jump and a call go on at the word behind the opcode. -/
lemma perform_pc_of_absolute (s : Cpu β) {b : Binding}
    (h : b.operation = .jmp ∧ b.mode = .absolute ∨ b.operation = .jsr) :
    (s.fetched.perform b b.operation.effect).pc =
      Word.ofBytes (s.read (s.pc + 1)) (s.read (s.pc + 2)) := by
  rw [← fetched_operandWord]
  rcases h with ⟨hoperation, hmode⟩ | hoperation
  · rw [hoperation]
    simp only [Operation.effect, perform, hmode]
    rfl
  · rw [hoperation]
    rfl

/-- **The listing and the processor agree on every instruction.**  Let the processor stand between
instructions, and let the bytes from the program counter on be disassembled there.

* They start no instruction exactly when a step under the strict policy is a fault.
* Otherwise an instruction step succeeds.  It costs the listed cycles and at most two more.
* A branch goes on at the address that its text names, and at no other, if its condition holds, and
  else behind its two bytes.
* A jump to an address and a call go on at the address that their text names, and at no other.
* Everything else but the indirect jump and the returns goes on behind the bytes that are listed. -/
theorem stepInstruction_agrees_with_listing (s : Cpu β) (hpending : s.pending = 0)
    (hhalted : s.halted = false) :
    (Instruction.decode? s.pc s.upcoming = none ↔
      ∃ f, ({ s with policy := .fail } : Cpu β).step = .error f) ∧
    ∀ i, Instruction.decode? s.pc s.upcoming = some i →
      ∃ b c t, Opcode.binding? i.opcode = some b ∧ s.stepInstruction = .ok (c, t) ∧
        i.cycles ≤ c ∧ c ≤ i.cycles + 2 ∧
        (b.operation.isBranch = true → ∃ target, (∀ address, i.Names address ↔ address = target) ∧
          t.pc = if s.takes b.operation then target else s.pc + 2) ∧
        (b.operation = .jmp ∧ b.mode = .absolute ∨ b.operation = .jsr →
          ∀ address, i.Names address ↔ address = t.pc) ∧
        (b.operation.isBranch = false → b.operation.isJump = false →
          t.pc = s.pc + UInt16.ofNat i.size) := by
  rw [upcoming, Instruction.decode?_threeBytes]
  constructor
  · rw [Option.map_eq_none_iff]
    constructor
    · intro hunbound
      exact ⟨_, step_eq_error_iff.mpr (fault?_eq_some_iff.mpr
        ⟨rfl, ⟨hpending, hhalted, hunbound⟩, rfl⟩)⟩
    · rintro ⟨f, hstep⟩
      exact (fault?_eq_some_iff.mp (step_eq_error_iff.mp hstep)).2.1.2.2
  · intro i hi
    obtain ⟨b, hbound, rfl⟩ := Option.map_eq_some_iff.mp hi
    obtain ⟨t, hstep, hpc⟩ := stepInstruction_of_binding? hpending hhalted hbound
    have hfits := (wellFormed_of_binding? hbound).fits
    refine ⟨b, s.cost b, t, hbound, hstep, (s.cost_bounds b).1, (s.cost_bounds b).2, ?_, ?_, ?_⟩
    · intro hbranch
      obtain ⟨f, value, heffect, htakes⟩ := Operation.exists_effect_of_isBranch hbranch
      have hmode : b.mode = .relative := by simpa [heffect, Effect.fits] using hfits
      have hnames := Instruction.names_of_relative hmode s.pc (s.read s.pc) (s.read (s.pc + 1))
      refine ⟨s.branchTarget, ?_, ?_⟩
      · rw [hmode]
        exact Instruction.names_iff hnames
      · rw [hpc, heffect, perform_branch_pc, htakes s]
    · intro hjump
      have hmode : b.mode = .absolute := by
        rcases hjump with ⟨-, hmode⟩ | hoperation
        · exact hmode
        · simpa [hoperation, Operation.effect, Effect.fits] using hfits
      have hnames := Instruction.names_of_absolute hmode s.pc (s.read s.pc) (s.read (s.pc + 1))
        (s.read (s.pc + 2))
      rw [hpc, s.perform_pc_of_absolute hjump, hmode]
      exact Instruction.names_iff hnames
    · intro hbranch hjump
      have hredirects : b.operation.effect.redirects = false := by
        rw [Operation.redirects_effect, hbranch, hjump]
        rfl
      rw [hpc, s.fetched.perform_pc hfits hredirects]
      change s.pc + 1 + UInt16.ofNat b.mode.operandBytes = s.pc + UInt16.ofNat (1 + _)
      rw [UInt16.ofNat_add, UInt16.add_assoc]
      rfl

/-- A processor before `BNE` at the end of the memory; the branch goes to the start of it. -/
def wrappingBranch : Cpu (AddressSpace (Ram 2)) where
  pc := 0xFFFE
  bus := ⟨#[⟨⟨"high", 0xFFFE, 0xFFFF⟩, ⟨#v[0xD0, 0x04]⟩⟩]⟩

/-- The branch is listed with the address it goes to. -/
theorem stepInstruction_agrees_with_listing_wrappingBranch :
    wrappingBranch.pending = 0 ∧ wrappingBranch.halted = false ∧
      ∃ i c t, Instruction.decode? wrappingBranch.pc wrappingBranch.upcoming = some i ∧
        wrappingBranch.stepInstruction = .ok (c, t) ∧ t.pc = 0x0004 ∧ i.Names 0x0004 := by
  have hlisted : Instruction.decode? wrappingBranch.pc wrappingBranch.upcoming =
      some (.ofBinding ⟨.bne, .relative, 2, false⟩ 0xFFFE 0xD0 [0x04]) := by
    decide +kernel
  have hbound : Opcode.binding? 0xD0 = some ⟨.bne, .relative, 2, false⟩ := by
    decide +kernel
  obtain ⟨b, c, t, hb, hstep, -, -, hbranch, -, -⟩ :=
    (stepInstruction_agrees_with_listing wrappingBranch rfl rfl).2 _ hlisted
  obtain rfl := Option.some.inj (hbound.symm.trans hb)
  obtain ⟨target, hnames, hpc⟩ := hbranch rfl
  have hname : (Instruction.ofBinding ⟨.bne, .relative, 2, false⟩ 0xFFFE 0xD0 [0x04]).Names 0x0004 :=
    Instruction.names_of_relative rfl 0xFFFE 0xD0 0x04
  have htarget : (0x0004 : UInt16) = target := (hnames 0x0004).mp hname
  exact ⟨rfl, rfl, _, c, t, hlisted, hstep, hpc.trans htarget.symm, hname⟩

end Cpu

end ChipScore
