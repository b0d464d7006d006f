import Mathlib.Tactic
import ChipScore.Proofs.Disassembly.Listing

/-!
# Assembly text is unambiguous

The text of an instruction is its mnemonic, and behind a blank its operand: a number in hexadecimal
digits between the marks of its addressing mode.  Nothing in the text says outright how wide the
number is, nor whether it is an operand or the target of a branch.

`AddressingMode.shape` is the text of an operand with every digit blotted out.  It tells all modes
apart but the absolute and the relative one (`AddressingMode.eq_of_shape_eq`), and no operation has
both.  With the mode known the digits give the operand bytes back, those of a branch by way of the
distance between the target and the address.  What remains open is the opcode, where the table binds
several opcodes to one operation in one mode.

The main result is `text_unambiguous`.
-/

namespace ChipScore

/-! ### Enumerations -/

/-- A property of the operations holds for all of them if it holds for the first, the second and so
on. -/
lemma Operation.forall_of_forall_lt {P : Operation → Prop} (h : ∀ n < 64, P (ofNat n))
    (operation : Operation) : P operation := by
  have hlt : operation.ctorIdx < 64 := by cases operation <;> decide
  have hoperation := h operation.ctorIdx hlt
  rwa [ofNat_ctorIdx] at hoperation

/-- A property of the modes holds for all of them if it holds for each in turn. -/
lemma AddressingMode.forall_of_forall_lt {P : AddressingMode → Prop} (h : ∀ n < 13, P (ofNat n))
    (mode : AddressingMode) : P mode := by
  have hlt : mode.ctorIdx < 13 := by cases mode <;> decide
  have hmode := h mode.ctorIdx hlt
  rwa [ofNat_ctorIdx] at hmode

/-! ### The opcode table -/

/-- Several opcodes have the same binding: those of the idle instructions, and the two immediate
subtractions. -/
def Binding.isShared (b : Binding) : Bool :=
  b.operation == .nop || b.operation == .sbc && b.mode == .immediate

/-- The mode in which an opcode is bound to an operation, if it is and the binding is not shared. -/
def Operation.modeAt (operation : Operation) (opcode : UInt8) : Option AddressingMode :=
  ((Opcode.binding? opcode).filter fun b => b.operation == operation && !b.isShared).map (·.mode)

/-- The modes in which opcodes are bound to an operation, one for each opcode. -/
def Operation.modes (operation : Operation) : List AddressingMode :=
  (List.range 256).filterMap fun n => operation.modeAt (UInt8.ofNat n)

/-- No operation is bound in one mode to two opcodes, shared bindings apart. -/
lemma Operation.nodup_modes (operation : Operation) : operation.modes.Nodup := by
  revert operation
  exact Operation.forall_of_forall_lt (by decide +kernel)

/-- Different opcodes are bound to an operation in different modes. -/
lemma Operation.modeAt_ne {operation : Operation} {m n : UInt8} (hlt : m.toNat < n.toNat)
    {mode other : AddressingMode} (hm : operation.modeAt m = some mode)
    (hn : operation.modeAt n = some other) : mode ≠ other := by
  have hpairwise := operation.nodup_modes
  rw [modes, List.Nodup, List.pairwise_filterMap, List.pairwise_iff_getElem] at hpairwise
  have hbound (opcode : UInt8) : opcode.toNat < (List.range 256).length := by
    rw [List.length_range]
    exact opcode.toNat_lt
  have hne := hpairwise m.toNat n.toNat (hbound m) (hbound n) hlt
  rw [List.getElem_range, List.getElem_range, UInt8.ofNat_toNat, UInt8.ofNat_toNat] at hne
  exact hne mode hm other hn

/-- Operations are told apart by their mnemonics. -/
lemma Operation.mnemonic_injective : Function.Injective Operation.mnemonic := by
  have htable : ∀ m < 64, ∀ n < m, (ofNat n).mnemonic ≠ (ofNat m).mnemonic := by decide +kernel
  have hne : ∀ o p : Operation, o.ctorIdx < p.ctorIdx → o.mnemonic ≠ p.mnemonic := by
    intro o p
    have hlt : p.ctorIdx < 64 := by cases p <;> decide
    have htable := htable p.ctorIdx hlt o.ctorIdx
    rwa [ofNat_ctorIdx, ofNat_ctorIdx] at htable
  intro o p h
  rcases lt_trichotomy o.ctorIdx p.ctorIdx with hlt | heq | hgt
  · exact absurd h (hne o p hlt)
  · rw [← ofNat_ctorIdx o, heq, ofNat_ctorIdx]
  · exact absurd h.symm (hne p o hgt)

namespace Opcode

/-- Opcodes that are listed alike: idle ones of one mode, and the two immediate subtractions. -/
def Synonymous (m n : UInt8) : Prop :=
  mnemonic m = "NOP" ∧ mnemonic n = "NOP" ∧ mode m = mode n ∨ m ∈ [0xE9, 0xEB] ∧ n ∈ [0xE9, 0xEB]

/-- A binding that is not shared belongs to one opcode. -/
lemma eq_of_binding? {m n : UInt8} {b c : Binding} (hm : binding? m = some b)
    (hn : binding? n = some c) (hoperation : b.operation = c.operation) (hmode : b.mode = c.mode)
    (hshared : b.isShared = false) : m = n := by
  have hcshared : c.isShared = false := by
    rw [← hshared, Binding.isShared, Binding.isShared, hoperation, hmode]
  have hmAt : b.operation.modeAt m = some b.mode := by
    simp [Operation.modeAt, hm, hshared]
  have hnAt : b.operation.modeAt n = some c.mode := by
    simp [Operation.modeAt, hn, hoperation, hcshared]
  rcases lt_trichotomy m.toNat n.toNat with hlt | heq | hgt
  · exact absurd hmode (Operation.modeAt_ne hlt hmAt hnAt)
  · exact UInt8.toNat_inj.mp heq
  · exact absurd hmode.symm (Operation.modeAt_ne hgt hnAt hmAt)

/-- Two different opcodes with one operation and one mode are listed alike. -/
lemma eq_or_synonymous {m n : UInt8} {b c : Binding} (hm : binding? m = some b)
    (hn : binding? n = some c) (hoperation : b.operation = c.operation) (hmode : b.mode = c.mode) :
    m = n ∨ Synonymous m n := by
  have hsubtraction : ∀ opcode, ∀ d ∈ binding? opcode, d.operation = .sbc → d.mode = .immediate →
      opcode ∈ [0xE9, 0xEB] := forall_byte_of_forall_lt (by decide +kernel)
  cases hshared : b.isShared with
  | false => exact .inl (eq_of_binding? hm hn hoperation hmode hshared)
  | true =>
    refine .inr ?_
    obtain hidle | ⟨hsbc, himmediate⟩ :
        b.operation = .nop ∨ b.operation = .sbc ∧ b.mode = .immediate := by
      simpa [Binding.isShared] using hshared
    · refine .inl ⟨?_, ?_, ?_⟩
      · simp only [mnemonic, hm, hidle]
        rfl
      · simp only [mnemonic, hn, ← hoperation, hidle]
        rfl
      · simp only [mode, hm, hn, hmode]
    · exact .inr ⟨hsubtraction m b hm hsbc himmediate,
        hsubtraction n c hn (hoperation ▸ hsbc) (hmode ▸ himmediate)⟩

end Opcode

/-! ### Modes -/

namespace AddressingMode

/-- The text in front of the digits of an operand. -/
def opening : AddressingMode → List Char
  | .implicit => []
  | .accumulator => ['A']
  | .immediate => ['#', '$']
  | .indirect | .indirectX | .indirectY => ['(', '$']
  | _ => ['$']

/-- The text behind the digits of an operand. -/
def closing : AddressingMode → List Char
  | .zeroPageX | .absoluteX => [',', 'X']
  | .zeroPageY | .absoluteY => [',', 'Y']
  | .indirect => [')']
  | .indirectX => [',', 'X', ')']
  | .indirectY => [')', ',', 'Y']
  | _ => []

/-- The number of digits of an operand.  A branch is written with the address it goes to. -/
def digits (mode : AddressingMode) : Nat :=
  if mode = .relative then 4 else 2 * mode.operandBytes

/-- Blots out a hexadecimal digit. -/
def blot (c : Char) : Char :=
  if c ∈ "0123456789ABCDEF".toList then '0' else c

/-- The text of an operand with its digits blotted out. -/
def shape (mode : AddressingMode) : List Char :=
  mode.opening.map blot ++ List.replicate mode.digits '0' ++ mode.closing.map blot

/-- The shape tells modes apart, but for an absolute and a relative address. -/
lemma eq_of_shape_eq {mode other : AddressingMode} (h : mode.shape = other.shape) :
    mode = other ∨ mode = .absolute ∧ other = .relative ∨ mode = .relative ∧ other = .absolute := by
  have htable : ∀ m < 13, ∀ n < 13, (ofNat m).shape = (ofNat n).shape → ofNat m = ofNat n ∨
      ofNat m = .absolute ∧ ofNat n = .relative ∨ ofNat m = .relative ∧ ofNat n = .absolute := by
    decide +kernel
  have hall : ∀ mode other : AddressingMode, mode.shape = other.shape → mode = other ∨
      mode = .absolute ∧ other = .relative ∨ mode = .relative ∧ other = .absolute := by
    refine forall_of_forall_lt fun m hm => ?_
    exact forall_of_forall_lt (htable m hm)
  exact hall mode other h

/-- Digits that are blotted out leave nothing but their number. -/
lemma map_blot_digits {width n : Nat} (h : n < 16 ^ width) :
    (Hex.digits width n).map blot = List.replicate width '0' := by
  have hdigit : ∀ m < 16, blot (Hex.digit m) = '0' := by decide
  induction width generalizing n with
  | zero =>
    obtain rfl : n = 0 := by omega
    rfl
  | succ width ih =>
    rw [Hex.digits, List.map_append, ih (by omega), List.map_singleton, hdigit _ (by omega),
      List.replicate_succ']

/-- The digits of bytes leave two marks for each byte. -/
lemma map_blot_flatMap_digits (bytes : List UInt8) :
    (bytes.flatMap fun b => Hex.digits 2 b.toNat).map blot =
      List.replicate (2 * bytes.length) '0' := by
  induction bytes with
  | nil => rfl
  | cons b bytes ih =>
    rw [List.flatMap_cons, List.map_append, ih, map_blot_digits b.toNat_lt,
      List.replicate_append_replicate, List.length_cons, Nat.mul_add, Nat.add_comm]

end AddressingMode

namespace Instruction

/-! ### The text of an instruction -/

/-- The digits of an operand, the high byte of a word first. -/
def numeral (i : Instruction) : List Char :=
  if i.mode = .relative then Hex.digits 4 i.branchTarget.toNat
  else i.operands.reverse.flatMap fun value => Hex.digits 2 value.toNat

/-- The text of an operand: its digits between the marks of its mode. -/
def operandChars (i : Instruction) : List Char :=
  i.mode.opening ++ i.numeral ++ i.mode.closing

section OfBinding

variable {b : Binding} {address : UInt16} {opcode : UInt8} {operands : List UInt8}

/-- The operand bytes are written the last one first. -/
lemma digits_ofBinding (h : operands.length = b.mode.operandBytes) :
    (ofBinding b address opcode operands).digits =
      .ok (String.ofList (operands.reverse.flatMap fun value => Hex.digits 2 value.toNat)) := by
  match operands with
  | [] => rfl
  | [value] => simp [digits, ofBinding, Hex.byte]
  | [low, high] =>
    have hreversed : b.reversed = true := beq_iff_eq.mpr h.symm
    simp [digits, ofBinding, hreversed, Hex.byte, String.ofList_append]
  | _ :: _ :: _ :: _ =>
    have hle := operandBytes_le b.mode
    rw [← h] at hle
    simp at hle

/-- The operand text of an instruction is its digits between the marks of its mode. -/
lemma operandText_ofBinding (h : operands.length = b.mode.operandBytes) :
    (ofBinding b address opcode operands).operandText
        (String.ofList (operands.reverse.flatMap fun value => Hex.digits 2 value.toNat)) =
      String.ofList (ofBinding b address opcode operands).operandChars := by
  have hnone (hmode : b.mode.operandBytes = 0) : operands = [] :=
    List.eq_nil_of_length_eq_zero (h.trans hmode)
  rw [← String.toList_inj]
  cases hmode : b.mode with
  | implicit | accumulator =>
    obtain rfl := hnone (by rw [hmode]; rfl)
    simp [operandText, operandChars, numeral, ofBinding, hmode, AddressingMode.opening,
      AddressingMode.closing]
  | _ =>
    simp [operandText, operandChars, numeral, ofBinding, hmode, AddressingMode.opening,
      AddressingMode.closing, Hex.address, Hex.word]

/-- The text of an instruction joins its mnemonic and its operand. -/
lemma text_ofBinding (h : operands.length = b.mode.operandBytes) :
    (ofBinding b address opcode operands).text =
      .ok (join b.operation.mnemonic
        (String.ofList (ofBinding b address opcode operands).operandChars)) := by
  have hmnemonic : (ofBinding b address opcode operands).mnemonic ≠ dataMnemonic :=
    mnemonic_ne_dataMnemonic b.operation
  rw [text, if_neg hmnemonic, digits_ofBinding h]
  exact congrArg (fun operand => Except.ok (join b.operation.mnemonic operand))
    (operandText_ofBinding h)

/-- Blotted out, the text of an operand is the shape of its mode. -/
lemma map_blot_operandChars (h : operands.length = b.mode.operandBytes) :
    (ofBinding b address opcode operands).operandChars.map AddressingMode.blot = b.mode.shape := by
  have hnumeral : (ofBinding b address opcode operands).numeral.map AddressingMode.blot =
      List.replicate b.mode.digits '0' := by
    unfold numeral AddressingMode.digits
    change (if b.mode = .relative then _ else operands.reverse.flatMap _ : List Char).map _ = _
    split_ifs with hmode
    · exact AddressingMode.map_blot_digits (UInt16.toNat_lt _)
    · rw [AddressingMode.map_blot_flatMap_digits, List.length_reverse, h]
  rw [operandChars, List.map_append, List.map_append, hnumeral]
  rfl

end OfBinding

/-! ### Reading a text back -/

/-- There is a blank between mnemonic and operand, unless there is no operand. -/
lemma toList_join (mnemonic operand : String) :
    (join mnemonic operand).toList =
      mnemonic.toList ++ if operand = "" then [] else ' ' :: operand.toList := by
  unfold join
  by_cases hempty : operand = ""
  · simp [hempty]
  · simp [hempty, String.isEmpty_eq_false_iff.mpr hempty]

/-- With mnemonics of one length, a text is the mnemonic and the operand of no other. -/
lemma join_injective {m n o p : String} (hlength : m.toList.length = n.toList.length)
    (h : join m o = join n p) : m = n ∧ o = p := by
  have hchars := congrArg String.toList h
  rw [toList_join, toList_join] at hchars
  obtain ⟨hmnemonic, htail⟩ := List.append_inj hchars hlength
  refine ⟨String.toList_inj.mp hmnemonic, ?_⟩
  by_cases ho : o = "" <;> by_cases hp : p = ""
  · rw [ho, hp]
  · simp [ho, hp] at htail
  · simp [ho, hp] at htail
  · exact String.toList_inj.mp (by simpa [ho, hp] using htail)

lemma length_mnemonic (operation : Operation) : operation.mnemonic.toList.length = 3 := by
  revert operation
  exact Operation.forall_of_forall_lt (by decide +kernel)

/-- No mnemonic begins like the name of the data bytes. -/
lemma join_mnemonic_ne (operation : Operation) (o p : String) :
    join operation.mnemonic o ≠ join dataMnemonic p := by
  have hhead : operation.mnemonic.toList.head? ≠ some '.' := by
    revert operation
    exact Operation.forall_of_forall_lt (by decide +kernel)
  intro h
  have hchars := congrArg (fun text => text.toList.head?) h
  have hdata : dataMnemonic.toList = ['.', 'b', 'y', 't', 'e'] := by decide
  obtain ⟨c, rest, hmnemonic⟩ := List.exists_cons_of_length_eq_add_one (length_mnemonic operation)
  simp only [toList_join, hdata, hmnemonic, List.cons_append, List.head?_cons] at hchars
  rw [hmnemonic] at hhead
  exact hhead hchars

/-- The offset of a branch is the low byte of the distance that it counts. -/
lemma low_ofSigned (offset : UInt8) : Word.low (Word.ofSigned offset) = offset := by
  revert offset
  exact forall_byte_of_forall_lt (by decide +kernel)

section OfBinding

variable {b c : Binding} {address : UInt16} {opcode other : UInt8} {operands others : List UInt8}

/-- At every address, the target of a branch determines its offset. -/
lemma operands_eq_of_branchTarget (hb : b.mode = .relative) (hc : c.mode = .relative)
    (hoperands : operands.length = b.mode.operandBytes)
    (hothers : others.length = c.mode.operandBytes)
    (h : (ofBinding b address opcode operands).branchTarget =
      (ofBinding c address other others).branchTarget) : operands = others := by
  rw [hb] at hoperands
  rw [hc] at hothers
  obtain ⟨offset, rfl⟩ := List.length_eq_one_iff.mp hoperands
  obtain ⟨otherOffset, rfl⟩ := List.length_eq_one_iff.mp hothers
  have hsize : b.size = c.size := by rw [Binding.size, Binding.size, hb, hc]
  change address + UInt16.ofNat b.size + Word.ofSigned offset =
    address + UInt16.ofNat c.size + Word.ofSigned otherOffset at h
  rw [hsize, UInt16.add_right_inj] at h
  rw [← low_ofSigned offset, h, low_ofSigned]

/-- In a known mode the operand can be read back from its text. -/
lemma operands_eq_of_operandChars (hmode : b.mode = c.mode)
    (hoperands : operands.length = b.mode.operandBytes)
    (hothers : others.length = c.mode.operandBytes)
    (h : (ofBinding b address opcode operands).operandChars =
      (ofBinding c address other others).operandChars) : operands = others := by
  change b.mode.opening ++ _ ++ b.mode.closing = c.mode.opening ++ _ ++ c.mode.closing at h
  rw [hmode] at h
  have hnumeral := List.append_cancel_left (List.append_cancel_right h)
  unfold numeral at hnumeral
  change (if b.mode = .relative then _ else operands.reverse.flatMap _ : List Char) =
    if c.mode = .relative then _ else others.reverse.flatMap _ at hnumeral
  rw [hmode] at hnumeral
  split_ifs at hnumeral with hrelative
  · have htarget := Hex.digits_injOn (UInt16.toNat_lt _) (UInt16.toNat_lt _) hnumeral
    exact operands_eq_of_branchTarget (hmode.trans hrelative) hrelative hoperands hothers
      (UInt16.toNat_inj.mp htarget)
  · have hlength : operands.reverse.length = others.reverse.length := by
      rw [List.length_reverse, List.length_reverse, hoperands, hothers, hmode]
    exact List.reverse_injective (Hex.flatMap_digits_injective hlength hnumeral)

/-- Decoded instructions with one text have one operation, one mode and one operand. -/
lemma eq_of_text_ofBinding (hb : Opcode.binding? opcode = some b)
    (hc : Opcode.binding? other = some c)
    (hoperands : operands.length = b.mode.operandBytes)
    (hothers : others.length = c.mode.operandBytes)
    (h : (ofBinding b address opcode operands).text = (ofBinding c address other others).text) :
    b.operation = c.operation ∧ b.mode = c.mode ∧ operands = others := by
  have hrelative : ∀ opcode, ∀ d ∈ Opcode.binding? opcode,
      d.mode = .relative ↔ d.operation.isBranch = true :=
    forall_byte_of_forall_lt (by decide +kernel)
  rw [text_ofBinding hoperands, text_ofBinding hothers] at h
  obtain ⟨hmnemonic, htext⟩ := join_injective
    ((length_mnemonic b.operation).trans (length_mnemonic c.operation).symm) (Except.ok.inj h)
  have hoperation : b.operation = c.operation := Operation.mnemonic_injective hmnemonic
  have hchars := String.ofList_injective htext
  -- an operation that branches has no mode but the relative one
  have hmodes : b.mode = .relative ↔ c.mode = .relative := by
    rw [hrelative opcode b hb, hrelative other c hc, hoperation]
  have hmode : b.mode = c.mode := by
    have hshape := congrArg (List.map AddressingMode.blot) hchars
    rw [map_blot_operandChars hoperands, map_blot_operandChars hothers] at hshape
    rcases AddressingMode.eq_of_shape_eq hshape with heq | ⟨hb, hc⟩ | ⟨hb, hc⟩
    · exact heq
    · rw [hmodes.mpr hc] at hb
      cases hb
    · rw [hmodes.mp hb] at hc
      cases hc
  exact ⟨hoperation, hmode, operands_eq_of_operandChars hmode hoperands hothers hchars⟩

end OfBinding

/-! ### Listings -/

/-- What stands in a listing at an address: a decoded instruction, or a data byte. -/
inductive ListedAt (address : UInt16) : Instruction → Prop
  /-- The instruction is what bytes at the address are decoded to. -/
  | decoded {bytes : List UInt8} {i : Instruction} :
      decode? address bytes = some i → ListedAt address i
  /-- The byte starts no instruction in some disassembly. -/
  | data {start : UInt16} {bytes : List UInt8} {value : UInt8} :
      dataByte address value ∈ disassemble start bytes → ListedAt address (dataByte address value)

/-- The text of a data byte is the byte in hexadecimal behind its mnemonic. -/
lemma text_dataByte (address : UInt16) (value : UInt8) :
    (dataByte address value).text = .ok (join dataMnemonic ("$" ++ Hex.byte value)) :=
  if_pos rfl

/-- The text of a data byte gives the byte back. -/
lemma eq_of_text_dataByte {address : UInt16} {value other : UInt8}
    (h : (dataByte address value).text = (dataByte address other).text) : value = other := by
  rw [text_dataByte, text_dataByte] at h
  have hdigits := congrArg String.toList (join_injective rfl (Except.ok.inj h)).2
  have hbytes : Hex.digits 2 value.toNat = Hex.digits 2 other.toNat := by
    simpa [Hex.byte] using hdigits
  exact UInt8.toNat_inj.mp (Hex.digits_injOn value.toNat_lt other.toNat_lt hbytes)

section ListedAt

variable {address : UInt16} {i j : Instruction}

/-- An entry is made of a binding and all its operand bytes, or of one byte. -/
lemma ListedAt.eq_ofBinding_or_dataByte (h : i.ListedAt address) :
    (∃ opcode b operands, Opcode.binding? opcode = some b ∧
      operands.length = b.mode.operandBytes ∧ i = ofBinding b address opcode operands) ∨
    ∃ value, i = dataByte address value := by
  cases h with
  | decoded hdecoded =>
    obtain ⟨opcode, b, operands, -, -, hbound, hlength, hi⟩ := decode?_eq_some_iff.mp hdecoded
    exact .inl ⟨opcode, b, operands, hbound, hlength, hi⟩
  | data => exact .inr ⟨_, rfl⟩

/-- A branch is no data byte. -/
lemma ListedAt.eq_ofBinding_of_relative (h : i.ListedAt address) (hmode : i.mode = .relative) :
    ∃ opcode b operands, operands.length = b.mode.operandBytes ∧ b.mode = .relative ∧
      i = ofBinding b address opcode operands := by
  obtain ⟨opcode, b, operands, -, hlength, rfl⟩ | ⟨value, rfl⟩ := h.eq_ofBinding_or_dataByte
  · exact ⟨opcode, b, operands, hlength, hmode, rfl⟩
  · cases hmode

/-- Everything in a listing has a text. -/
lemma ListedAt.exists_text (h : i.ListedAt address) : ∃ text, i.text = .ok text := by
  obtain ⟨opcode, b, operands, -, hlength, rfl⟩ | ⟨value, rfl⟩ := h.eq_ofBinding_or_dataByte
  · exact ⟨_, text_ofBinding hlength⟩
  · exact ⟨_, text_dataByte address value⟩

/-- A branch is listed with its target. -/
lemma ListedAt.names_branchTarget (h : i.ListedAt address) (hmode : i.mode = .relative) :
    i.Names i.branchTarget := by
  obtain ⟨opcode, b, operands, hlength, hb, rfl⟩ := h.eq_ofBinding_of_relative hmode
  rw [hb] at hlength
  obtain ⟨offset, rfl⟩ := List.length_eq_one_iff.mp hlength
  have htarget : (ofBinding b address opcode [offset]).branchTarget =
      address + 2 + Word.ofSigned offset := by
    simp only [branchTarget, ofBinding, Binding.size, hb]
    rfl
  rw [htarget]
  exact names_of_relative hb address opcode offset

/-- At one address, branches to one target have the same operand byte. -/
lemma ListedAt.operands_eq_of_branchTarget (hi : i.ListedAt address) (hj : j.ListedAt address)
    (himode : i.mode = .relative) (hjmode : j.mode = .relative)
    (htarget : i.branchTarget = j.branchTarget) : i.operands = j.operands := by
  obtain ⟨opcode, b, operands, hoperands, hb, rfl⟩ := hi.eq_ofBinding_of_relative himode
  obtain ⟨other, c, others, hothers, hc, rfl⟩ := hj.eq_ofBinding_of_relative hjmode
  exact Instruction.operands_eq_of_branchTarget hb hc hoperands hothers htarget

/-- Two entries with one text agree in all but synonymous opcodes. -/
lemma ListedAt.eq_of_text (hi : i.ListedAt address) (hj : j.ListedAt address)
    (htext : i.text = j.text) :
    i.mnemonic = j.mnemonic ∧ i.mode = j.mode ∧ i.operands = j.operands ∧
      (i.opcode = j.opcode ∨ Opcode.Synonymous i.opcode j.opcode) := by
  obtain ⟨m, b, operands, hm, hoperands, rfl⟩ | ⟨value, rfl⟩ := hi.eq_ofBinding_or_dataByte <;>
    obtain ⟨n, c, others, hn, hothers, rfl⟩ | ⟨other, rfl⟩ := hj.eq_ofBinding_or_dataByte
  · obtain ⟨hoperation, hmode, rfl⟩ := eq_of_text_ofBinding hm hn hoperands hothers htext
    exact ⟨congrArg Operation.mnemonic hoperation, hmode, rfl,
      Opcode.eq_or_synonymous hm hn hoperation hmode⟩
  · rw [text_ofBinding hoperands, text_dataByte] at htext
    exact absurd (Except.ok.inj htext) (join_mnemonic_ne _ _ _)
  · rw [text_ofBinding hothers, text_dataByte] at htext
    exact absurd (Except.ok.inj htext.symm) (join_mnemonic_ne _ _ _)
  · obtain rfl := eq_of_text_dataByte htext
    exact ⟨rfl, rfl, rfl, .inl rfl⟩

end ListedAt

/-- **Assembly text is unambiguous.**  Whatever is listed at an address has a text.  Two entries
with one text have the same mnemonic, the same addressing mode and the same operand bytes, and their
opcodes are equal or two that are listed alike.  A branch is listed with its target, and whatever
the address is, branches with one target have one offset. -/
theorem text_unambiguous {address : UInt16} {i j : Instruction} (hi : i.ListedAt address)
    (hj : j.ListedAt address) :
    (∃ text, i.text = .ok text) ∧
    (i.text = j.text →
      i.mnemonic = j.mnemonic ∧ i.mode = j.mode ∧ i.operands = j.operands ∧
        (i.opcode = j.opcode ∨ Opcode.Synonymous i.opcode j.opcode)) ∧
    (i.mode = .relative → i.Names i.branchTarget ∧
      (j.mode = .relative → i.branchTarget = j.branchTarget → i.operands = j.operands)) := by
  refine ⟨hi.exists_text, hi.eq_of_text hj, fun himode => ⟨hi.names_branchTarget himode, ?_⟩⟩
  intro hjmode htarget
  exact hi.operands_eq_of_branchTarget hj himode hjmode htarget

/-- `SBC #$10` has two opcodes, and two branches at the end of the memory meet behind its start. -/
theorem text_unambiguous_lastWord :
    ∃ i j k l, decode? 0xFFFE [0xE9, 0x10] = some i ∧ decode? 0xFFFE [0xEB, 0x10] = some j ∧
      i.text = j.text ∧ i.opcode ≠ j.opcode ∧ i.operands = j.operands ∧
      Opcode.Synonymous i.opcode j.opcode ∧
      decode? 0xFFFE [0xD0, 0x04] = some k ∧ decode? 0xFFFE [0xF0, 0x04] = some l ∧
      k.branchTarget = l.branchTarget ∧ k.Names 0x0004 ∧ k.operands = l.operands := by
  have hi : decode? 0xFFFE [0xE9, 0x10] =
      some (.ofBinding ⟨.sbc, .immediate, 2, false⟩ 0xFFFE 0xE9 [0x10]) := by decide +kernel
  have hj : decode? 0xFFFE [0xEB, 0x10] =
      some (.ofBinding ⟨.sbc, .immediate, 2, true⟩ 0xFFFE 0xEB [0x10]) := by decide +kernel
  have hk : decode? 0xFFFE [0xD0, 0x04] =
      some (.ofBinding ⟨.bne, .relative, 2, false⟩ 0xFFFE 0xD0 [0x04]) := by decide +kernel
  have hl : decode? 0xFFFE [0xF0, 0x04] =
      some (.ofBinding ⟨.beq, .relative, 2, false⟩ 0xFFFE 0xF0 [0x04]) := by decide +kernel
  have htext : (ofBinding ⟨.sbc, .immediate, 2, false⟩ 0xFFFE 0xE9 [0x10]).text =
      (ofBinding ⟨.sbc, .immediate, 2, true⟩ 0xFFFE 0xEB [0x10]).text := by
    rw [text_ofBinding rfl, text_ofBinding rfl]
    rfl
  obtain ⟨-, -, hoperands, hopcodes⟩ := (text_unambiguous (.decoded hi) (.decoded hj)).2.1 htext
  obtain ⟨hnames, hdetermines⟩ := (text_unambiguous (.decoded hk) (.decoded hl)).2.2 rfl
  refine ⟨_, _, _, _, hi, hj, htext, by decide, hoperands, hopcodes.resolve_left (by decide), hk,
    hl, rfl, ?_, hdetermines rfl rfl⟩
  have htarget :
      (ofBinding ⟨.bne, .relative, 2, false⟩ 0xFFFE 0xD0 [0x04]).branchTarget = 0x0004 := by
    decide +kernel
  rwa [htarget] at hnames

end Instruction

end ChipScore
