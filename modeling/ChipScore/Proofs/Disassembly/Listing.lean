import Mathlib.Tactic
import ChipScore.Proofs.Disassembly.Execution

/-!
# A listing loses nothing

`disassemble` cuts a list of bytes into entries.  `Instruction.front` is the entry that it cuts off
first: the instruction that starts there, or the first byte as data.  The entry is as long as its
size says, and the listing goes on behind it (`disassemble_cons`), so whatever holds of the front
and is kept by one more entry holds of the whole listing.  `disassemble_induction` is the induction
that follows the cuts, whose places depend on the bytes.

The main result is `disassemble_partitions`: the entries make up the input, each lies where the
sizes of the earlier ones lead to, and is the front of the bytes from there on.
-/

namespace ChipScore

namespace Instruction

/-- The bytes of an instruction. -/
def bytes (i : Instruction) : List UInt8 :=
  i.opcode :: i.operands

/-- The size of an instruction is the number of its bytes, which are three at most. -/
structure IsSized (i : Instruction) : Prop where
  size_eq : i.size = 1 + i.operands.length
  size_le : i.size ≤ 3

/-- The first entry of a listing: the instruction at the front of the bytes, or their first byte. -/
def front (address : UInt16) (value : UInt8) (rest : List UInt8) : Instruction :=
  (decode? address (value :: rest)).getD (dataByte address value)

/-! ### One entry -/

/-- What is decoded is a bound opcode with all its operand bytes. -/
lemma decode?_eq_some_iff {address : UInt16} {bytes : List UInt8} {i : Instruction} :
    decode? address bytes = some i ↔
      ∃ opcode b operands rest, bytes = opcode :: (operands ++ rest) ∧
        Opcode.binding? opcode = some b ∧ operands.length = b.mode.operandBytes ∧
        i = ofBinding b address opcode operands := by
  constructor
  · intro h
    unfold decode? at h
    split at h
    · cases h
    · rename_i opcode rest
      split at h
      · rename_i b hbound
        obtain ⟨hle, hi⟩ := Option.ite_none_right_eq_some.mp h
        refine ⟨opcode, b, rest.take b.mode.operandBytes, rest.drop b.mode.operandBytes, ?_, hbound,
          ?_, (Option.some.inj hi).symm⟩
        · rw [List.take_append_drop]
        · exact List.length_take_of_le hle
      · cases h
  · rintro ⟨opcode, b, operands, rest, rfl, hbound, hlength, rfl⟩
    have hle : b.mode.operandBytes ≤ (operands ++ rest).length := by
      rw [List.length_append, hlength]
      exact Nat.le_add_right _ _
    rw [decode?]
    simp only [hbound]
    rw [if_pos hle, ← hlength, List.take_left]

/-- Nothing is decoded where the opcode is unbound or its operand is cut off. -/
lemma decode?_eq_none_iff {address : UInt16} {value : UInt8} {rest : List UInt8} :
    decode? address (value :: rest) = none ↔
      ∀ b, Opcode.binding? value = some b → rest.length < b.mode.operandBytes := by
  rw [decode?]
  cases hbound : Opcode.binding? value with
  | none => simp
  | some b => simp

lemma operandBytes_le (mode : AddressingMode) : mode.operandBytes ≤ 2 := by
  cases mode <;> decide

/-- An instruction with the operand bytes of its mode is as long as its size says. -/
lemma isSized_ofBinding {b : Binding} {operands : List UInt8}
    (h : operands.length = b.mode.operandBytes) (address : UInt16) (opcode : UInt8) :
    (ofBinding b address opcode operands).IsSized where
  size_eq := congrArg (1 + ·) h.symm
  size_le := Nat.add_le_add_left (operandBytes_le b.mode) 1

/-- The front is cut off the bytes, at its address. -/
lemma front_cut (address : UInt16) (value : UInt8) (rest : List UInt8) :
    (front address value rest).IsSized ∧ (front address value rest).address = address ∧
      (front address value rest).bytes ++ (value :: rest).drop (front address value rest).size =
        value :: rest := by
  unfold front
  cases hdecoded : decode? address (value :: rest) with
  | none => exact ⟨⟨rfl, Nat.one_le_ofNat⟩, rfl, rfl⟩
  | some i =>
    obtain ⟨opcode, b, operands, behind, hbytes, -, hlength, rfl⟩ := decode?_eq_some_iff.mp hdecoded
    have hsized := isSized_ofBinding hlength address opcode
    refine ⟨hsized, rfl, ?_⟩
    change opcode :: operands ++ (value :: rest).drop (ofBinding b address opcode operands).size = _
    rw [hbytes, hsized.size_eq, Nat.add_comm, List.drop_succ_cons]
    change opcode :: operands ++ (operands ++ behind).drop operands.length = _
    rw [List.drop_left]
    rfl

/-- An instruction of up to three bytes has a text. -/
lemma IsSized.exists_text {i : Instruction} (h : i.IsSized) : ∃ text, i.text = .ok text := by
  refine Instruction.exists_text ?_
  have hsize := h.size_eq
  have hle := h.size_le
  omega

end Instruction

open Instruction

/-- A listing is the front and the listing of what lies behind it. -/
lemma disassemble_cons (address : UInt16) (value : UInt8) (rest : List UInt8) :
    disassemble address (value :: rest) =
      front address value rest ::
        disassemble (address + UInt16.ofNat (front address value rest).size)
          ((value :: rest).drop (front address value rest).size) := by
  have hsized := (front_cut address value rest).1
  rw [disassemble]
  unfold front at hsized ⊢
  cases hdecoded : decode? address (value :: rest) with
  | none => rfl
  | some i =>
    rw [hdecoded] at hsized
    have hsize : i.size = i.size - 1 + 1 := by
      have hsize := hsized.size_eq
      dsimp only [Option.getD_some] at hsize
      omega
    dsimp only [Option.getD_some]
    conv_rhs => rw [hsize, List.drop_succ_cons, ← hsize]

/-- Induction along the cuts of a listing. -/
lemma disassemble_induction {P : UInt16 → List UInt8 → Prop} (nil : ∀ address, P address [])
    (cons : ∀ address value rest,
      P (address + UInt16.ofNat (front address value rest).size)
        ((value :: rest).drop (front address value rest).size) → P address (value :: rest))
    (address : UInt16) (bytes : List UInt8) : P address bytes := by
  induction hlength : bytes.length using Nat.strong_induction_on generalizing address bytes with
  | _ n ih =>
    cases bytes with
    | nil => exact nil address
    | cons value rest =>
      refine cons address value rest (ih _ ?_ _ _ rfl)
      have hsize := (front_cut address value rest).1.size_eq
      rw [← hlength, List.length_drop, List.length_cons]
      omega

/-! ### The whole listing -/

/-- The bytes of a listing are the bytes that were disassembled, in their order. -/
lemma flatMap_bytes_disassemble (address : UInt16) (bytes : List UInt8) :
    (disassemble address bytes).flatMap Instruction.bytes = bytes := by
  induction address, bytes using disassemble_induction with
  | nil => rw [disassemble, List.flatMap_nil]
  | cons address value rest ih =>
    rw [disassemble_cons, List.flatMap_cons, ih]
    exact (front_cut address value rest).2.2

/-- An entry is the front of the bytes that the sizes of the earlier ones lead to. -/
lemma getElem?_disassemble (address : UInt16) (bytes : List UInt8) {k : Nat} {i : Instruction}
    (h : (disassemble address bytes)[k]? = some i) :
    let before := (((disassemble address bytes).take k).map size).sum
    ∃ value rest, bytes.drop before = value :: rest ∧
      i = front (address + UInt16.ofNat before) value rest := by
  induction address, bytes using disassemble_induction generalizing k with
  | nil address =>
    rw [disassemble] at h
    cases h
  | cons address value rest ih =>
    rw [disassemble_cons] at h ⊢
    cases k with
    | zero =>
      obtain rfl := Option.some.inj h
      refine ⟨value, rest, rfl, ?_⟩
      exact congrArg (front · value rest) (UInt16.add_zero address).symm
    | succ k =>
      rw [List.getElem?_cons_succ] at h
      obtain ⟨first, behind, hdrop, rfl⟩ := ih h
      dsimp only
      rw [List.take_succ_cons, List.map_cons, List.sum_cons, ← List.drop_drop, hdrop,
        UInt16.ofNat_add, ← UInt16.add_assoc]
      exact ⟨first, behind, rfl, rfl⟩

/-- The hexadecimal columns of a listing make up the hexadecimal text of its bytes. -/
lemma intercalate_hex (listing : List Instruction) :
    " ".intercalate (listing.map hex) =
      " ".intercalate ((listing.flatMap Instruction.bytes).map Hex.byte) := by
  induction listing with
  | nil => rfl
  | cons i later ih =>
    by_cases hlast : later = []
    · subst hlast
      simp [hex, Instruction.bytes]
    · have hbytes : (later.flatMap Instruction.bytes).map Hex.byte ≠ [] := by
        obtain ⟨j, later, rfl⟩ := List.exists_cons_of_ne_nil hlast
        simp [Instruction.bytes]
      rw [List.map_cons, String.intercalate_cons_of_ne_nil (by simpa using hlast), ih,
        List.flatMap_cons, List.map_append,
        String.intercalate_append_of_ne_nil (by simp [Instruction.bytes]) hbytes]
      rfl

/-- **A listing partitions its bytes without loss.**  The bytes of the entries, one after the other,
are the bytes that were disassembled, and so are the texts of their hexadecimal columns.  Every
entry lies where the sizes of the earlier ones lead to, modulo `2 ^ 16`; its size is the number of
its bytes, one to three; it has a text; and it is what is decoded from the bytes from there on, or
else the first of them as data.  That happens when the opcode is unbound or its operand cut off. -/
theorem disassemble_partitions (address : UInt16) (bytes : List UInt8) :
    (disassemble address bytes).flatMap Instruction.bytes = bytes ∧
    " ".intercalate ((disassemble address bytes).map hex) = " ".intercalate (bytes.map Hex.byte) ∧
    ∀ k : Fin (disassemble address bytes).length,
      let i := (disassemble address bytes)[k]
      let before := (((disassemble address bytes).take k).map size).sum
      i.address.toNat = (address.toNat + before) % 65536 ∧
      i.size = 1 + i.operands.length ∧ 1 ≤ i.size ∧ i.size ≤ 3 ∧
      (∃ text, i.text = .ok text) ∧
      ∃ value rest, bytes.drop before = value :: rest ∧
        i = (decode? i.address (value :: rest)).getD (dataByte i.address value) ∧
        (decode? i.address (value :: rest) = none ↔
          ∀ b, Opcode.binding? value = some b → rest.length < b.mode.operandBytes) := by
  refine ⟨flatMap_bytes_disassemble address bytes, ?_, ?_⟩
  · rw [intercalate_hex, flatMap_bytes_disassemble]
  · intro k i before
    obtain ⟨value, rest, hdrop, hi⟩ := getElem?_disassemble address bytes
      (List.getElem?_eq_getElem k.isLt)
    change i = front (address + UInt16.ofNat before) value rest at hi
    obtain ⟨hsized, haddress, -⟩ := front_cut (address + UInt16.ofNat before) value rest
    rw [← hi] at hsized haddress
    refine ⟨?_, hsized.size_eq, ?_, hsized.size_le, hsized.exists_text, value, rest, hdrop, ?_,
      decode?_eq_none_iff⟩
    · rw [haddress, UInt16.toNat_add, UInt16.toNat_ofNat']
      omega
    · have hsize := hsized.size_eq
      omega
    · rw [haddress]
      exact hi

end ChipScore
