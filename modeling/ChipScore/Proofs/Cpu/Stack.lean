import Mathlib.Tactic
import ChipScore.Proofs.Bus.Cells
import ChipScore.Proofs.Word

/-!
# The stack

The stack lives in the page at `$0100`, and the pointer goes round in it: the push after the one at
`$0100` is at `$01FF`.  `Cpu.pushed` is where the pushes from a pointer on go.  The first 256 of them
go to different cells (`pushed_inj`), so on a page of plain memory (`Bus.PlainStack`) that many bytes
stay where they were pushed, wherever the pointer stood (`holds_pushAll`).

What is pulled does not depend on how the bytes have got there: a processor whose stack holds some
bytes (`Cpu.Holds`) pulls them in the reverse order (`Holds.pullAll`).
-/

namespace ChipScore

namespace Bus

/-- The stack page is plain memory: a read in it returns the byte that was written there last, and a
write in it changes no other byte. -/
structure PlainStack {β : Type} [Bus β] (bus : β) : Prop where
  /-- The page consists of plain cells. -/
  cells : ∀ sp, IsCell bus (Cpu.stackAddress sp)
  /-- A write in the page, after whatever other writes, changes its own cell only. -/
  inert : ∀ writes sp value other, other ≠ Cpu.stackAddress sp →
    read (write (writeAll bus writes) (Cpu.stackAddress sp) value) other =
      read (writeAll bus writes) other

end Bus

namespace Cpu

/-- An address lies in the stack page. -/
def InStackPage (address : UInt16) : Prop :=
  0x0100 ≤ address ∧ address ≤ 0x01FF

instance (address : UInt16) : Decidable (InStackPage address) :=
  inferInstanceAs (Decidable (_ ∧ _))

/-- Where a push goes that comes after some number of other pushes. -/
def pushed (sp : UInt8) (before : Nat) : UInt16 :=
  stackAddress (sp - UInt8.ofNat before)

variable {β : Type} [Bus β] {s t : Cpu β}

/-- Pushes bytes, the first of them first. -/
def pushAll (s : Cpu β) (bytes : List UInt8) : Cpu β :=
  bytes.foldl push s

/-- Pulls a number of bytes: the bytes in the order in which they come, and the processor then. -/
def pullAll (s : Cpu β) : Nat → List UInt8 × Cpu β
  | 0 => ([], s)
  | n + 1 => (s.top :: (s.pop.pullAll n).1, (s.pop.pullAll n).2)

/-- The stack holds bytes that were pushed from a pointer on, the first of them first, and nothing
lies above them. -/
structure Holds (s : Cpu β) (sp : UInt8) (bytes : List UInt8) : Prop where
  /-- The pointer is below the bytes. -/
  pointer : s.sp = sp - UInt8.ofNat bytes.length
  /-- Each byte is where it was pushed. -/
  stored : ∀ k (hk : k < bytes.length), Bus.read s.bus (pushed sp k) = bytes[k]

/-! ### Where pushes go -/

/-- The stack page begins at address 256. -/
lemma toNat_stackAddress (sp : UInt8) : (stackAddress sp).toNat = 256 + sp.toNat := by
  revert sp
  exact forall_byte_of_forall_lt (by decide +kernel)

/-- Different stack pointers point to different addresses. -/
lemma stackAddress_inj {sp sp' : UInt8} : stackAddress sp = stackAddress sp' ↔ sp = sp' := by
  rw [← UInt16.toNat_inj, toNat_stackAddress, toNat_stackAddress, ← UInt8.toNat_inj]
  omega

/-- The stack pointer cannot leave the stack page. -/
lemma inStackPage_stackAddress (sp : UInt8) : InStackPage (stackAddress sp) := by
  revert sp
  exact forall_byte_of_forall_lt (by decide +kernel)

lemma pushed_zero (sp : UInt8) : pushed sp 0 = stackAddress sp :=
  congrArg stackAddress (UInt8.sub_zero sp)

/-- Moving down by some steps and then by others. -/
lemma sub_ofNat_sub_ofNat (sp : UInt8) (k l : Nat) :
    sp - UInt8.ofNat k - UInt8.ofNat l = sp - UInt8.ofNat (k + l) := by
  rw [← UInt8.toNat_inj]
  simp only [UInt8.toNat_sub, UInt8.toNat_ofNat']
  omega

/-- Moving up from a push leads to the push before it. -/
lemma sub_ofNat_succ_add_one (sp : UInt8) (k : Nat) :
    sp - UInt8.ofNat (k + 1) + 1 = sp - UInt8.ofNat k := by
  rw [← sub_ofNat_sub_ofNat]
  exact UInt8.sub_add_cancel _ 1

/-- Pushes after some others are pushes from where these have led. -/
lemma pushed_sub (sp : UInt8) (k l : Nat) :
    pushed (sp - UInt8.ofNat k) l = pushed sp (k + l) := by
  rw [pushed, pushed, sub_ofNat_sub_ofNat]

/-- After one push the next ones are one further. -/
lemma pushed_sub_one (sp : UInt8) (k : Nat) : pushed (sp - 1) k = pushed sp (k + 1) :=
  (pushed_sub sp 1 k).trans (congrArg (pushed sp) (Nat.add_comm 1 k))

/-- The first 256 pushes go to different cells. -/
lemma pushed_inj {sp : UInt8} {k l : Nat} (hk : k < 256) (hl : l < 256)
    (h : pushed sp k = pushed sp l) : k = l := by
  have hbytes : UInt8.ofNat k = UInt8.ofNat l :=
    (UInt8.sub_right_inj sp).mp (stackAddress_inj.mp h)
  have hnat := congrArg UInt8.toNat hbytes
  rw [UInt8.toNat_ofNat', UInt8.toNat_ofNat'] at hnat
  omega

/-- Pushes stay in the stack page, however many there are. -/
lemma inStackPage_pushed (sp : UInt8) (k : Nat) : InStackPage (pushed sp k) :=
  inStackPage_stackAddress _

/-! ### Pushing and pulling -/

/-- The writes of pushing bytes. -/
def pushWrites (sp : UInt8) : List UInt8 → List Bus.Access
  | [] => []
  | byte :: rest => ⟨stackAddress sp, byte⟩ :: pushWrites (sp - 1) rest

/-- Pushing does nothing to the bus but its writes. -/
lemma bus_pushAll (s : Cpu β) (bytes : List UInt8) :
    (s.pushAll bytes).bus = Bus.writeAll s.bus (pushWrites s.sp bytes) := by
  induction bytes generalizing s with
  | nil => rfl
  | cons byte rest ih => exact ih (s.push byte)

/-- Pushing moves the pointer down by the number of bytes and writes them. -/
lemma pushAll_eq (s : Cpu β) (bytes : List UInt8) :
    s.pushAll bytes =
      { s with sp := s.sp - UInt8.ofNat bytes.length, bus := (s.pushAll bytes).bus } := by
  induction bytes generalizing s with
  | nil =>
    change s = { s with sp := s.sp - 0 }
    rw [UInt8.sub_zero]
  | cons byte rest ih =>
    have hsp : s.sp - 1 - UInt8.ofNat rest.length = s.sp - UInt8.ofNat (rest.length + 1) := by
      rw [Nat.add_comm]
      exact sub_ofNat_sub_ofNat s.sp 1 rest.length
    rw [List.length_cons, ← hsp]
    exact ih (s.push byte)

/-- A write of a push goes where one of the bytes is pushed. -/
lemma exists_of_mem_pushWrites {sp : UInt8} {bytes : List UInt8} {w : Bus.Access}
    (h : w ∈ pushWrites sp bytes) : ∃ k < bytes.length, w.address = pushed sp k := by
  induction bytes generalizing sp with
  | nil => cases h
  | cons byte rest ih =>
    rcases List.mem_cons.mp h with rfl | h
    · exact ⟨0, Nat.succ_pos _, (pushed_zero sp).symm⟩
    · obtain ⟨k, hk, haddress⟩ := ih h
      exact ⟨k + 1, Nat.succ_lt_succ hk, haddress.trans (pushed_sub_one sp k)⟩

end Cpu

/-! ### Plain stacks -/

namespace Bus.PlainStack

variable {β : Type} [Bus β] {bus : β}

/-- A plain stack stays one. -/
lemma writeAll (h : PlainStack bus) (writes : List Access) : PlainStack (writeAll bus writes) where
  cells sp := (h.cells sp).writeAll writes
  inert later sp value other hother := by
    rw [← writeAll_append]
    exact h.inert (writes ++ later) sp value other hother

/-- Pushing changes only the cells that are pushed to. -/
lemma read_writeAll_of_ne (h : PlainStack bus) {sp : UInt8} {bytes : List UInt8} {address : UInt16}
    (hne : ∀ k < bytes.length, Cpu.pushed sp k ≠ address) :
    read (Bus.writeAll bus (Cpu.pushWrites sp bytes)) address = read bus address := by
  induction bytes generalizing bus sp with
  | nil => rfl
  | cons byte rest ih =>
    have hfirst : address ≠ Cpu.stackAddress sp :=
      Cpu.pushed_zero sp ▸ (hne 0 (Nat.succ_pos _)).symm
    have hlater : ∀ k < rest.length, Cpu.pushed (sp - 1) k ≠ address := fun k hk =>
      Cpu.pushed_sub_one sp k ▸ hne (k + 1) (Nat.succ_lt_succ hk)
    have hrest := ih (h.writeAll [⟨Cpu.stackAddress sp, byte⟩]) hlater
    exact hrest.trans (h.inert [] sp byte address hfirst)

end Bus.PlainStack

namespace Cpu

variable {β : Type} [Bus β] {s : Cpu β}

/-- What is pushed stays where it is under up to 255 further pushes. -/
lemma read_pushAll_cons (h : Bus.PlainStack s.bus) (byte : UInt8) {rest : List UInt8}
    (hlength : rest.length < 256) :
    Bus.read (s.pushAll (byte :: rest)).bus (stackAddress s.sp) = byte := by
  rw [bus_pushAll, h.cells s.sp, pushWrites]
  have hlater : ∀ w ∈ pushWrites (s.sp - 1) rest, w.address ≠ stackAddress s.sp := by
    intro w hw heq
    obtain ⟨k, hk, haddress⟩ := exists_of_mem_pushWrites hw
    rw [pushed_sub_one, heq, ← pushed_zero] at haddress
    have hzero := pushed_inj (by decide) (by omega) haddress
    omega
  rw [Bus.lastWritten, List.foldl_cons, if_pos rfl]
  exact Bus.lastWritten_of_forall_ne hlater byte

/-- Up to a whole page of bytes is found where it was pushed; none of them overwrites another. -/
lemma read_pushAll (h : Bus.PlainStack s.bus) {bytes : List UInt8} (hlength : bytes.length ≤ 256)
    {k : Nat} (hk : k < bytes.length) :
    Bus.read (s.pushAll bytes).bus (pushed s.sp k) = bytes[k] := by
  induction bytes generalizing s k with
  | nil => cases hk
  | cons byte rest ih =>
    cases k with
    | zero =>
      rw [pushed_zero]
      exact read_pushAll_cons h byte hlength
    | succ k =>
      rw [← pushed_sub_one]
      exact ih (s := s.push byte) (h.writeAll [⟨stackAddress s.sp, byte⟩])
        (Nat.le_of_succ_le hlength) (Nat.lt_of_succ_lt_succ hk)

/-- Up to 256 bytes are all there once they have been pushed, wherever the pointer stood. -/
lemma holds_pushAll (h : Bus.PlainStack s.bus) {bytes : List UInt8}
    (hlength : bytes.length ≤ 256) : (s.pushAll bytes).Holds s.sp bytes where
  pointer := congrArg Cpu.sp (pushAll_eq s bytes)
  stored _ := read_pushAll h hlength

/-- **Last in, first out.**  The bytes that the stack holds are pulled in the reverse order, and the
pointer is then where it stood before they were pushed. -/
lemma Holds.pullAll {sp : UInt8} {bytes : List UInt8} (h : s.Holds sp bytes) :
    s.pullAll bytes.length = (bytes.reverse, { s with sp := sp }) := by
  -- the byte that was pushed last is pulled first
  induction bytes using List.reverseRecOn generalizing s with
  | nil =>
    have hsp : s.sp = sp := h.pointer.trans (UInt8.sub_zero sp)
    rw [← hsp]
    rfl
  | append_singleton bytes byte ih =>
    have hlength : (bytes ++ [byte]).length = bytes.length + 1 := List.length_append
    have hsp : s.sp + 1 = sp - UInt8.ofNat bytes.length := by
      rw [h.pointer, hlength, sub_ofNat_succ_add_one]
    have htop : s.top = byte := by
      have hread := h.stored bytes.length (hlength ▸ Nat.lt_succ_self _)
      rw [pushed, ← hsp, List.getElem_concat_length rfl] at hread
      exact hread
    have hrest : s.pop.Holds sp bytes := by
      refine ⟨hsp, fun k hk => ?_⟩
      have hread := h.stored k (hlength ▸ Nat.lt_succ_of_lt hk)
      rw [List.getElem_append_left hk] at hread
      exact hread
    rw [hlength, Cpu.pullAll, ih hrest, htop, List.reverse_concat]
    rfl

/-- What has been pushed is pulled in the reverse order, and the pointer is back where it was. -/
lemma pullAll_pushAll (h : Bus.PlainStack s.bus) {bytes : List UInt8}
    (hlength : bytes.length ≤ 256) :
    (s.pushAll bytes).pullAll bytes.length =
      (bytes.reverse, { s with bus := (s.pushAll bytes).bus }) := by
  rw [(holds_pushAll h hlength).pullAll]
  have hrest : { s.pushAll bytes with sp := s.sp } = { s with bus := (s.pushAll bytes).bus } :=
    congrArg (fun t : Cpu β => { t with sp := s.sp }) (pushAll_eq s bytes)
  rw [hrest]

end Cpu

end ChipScore
