import Mathlib.Tactic
import ChipScore.Bus.AddressSpace
import ChipScore.Bus.Ram
import ChipScore.Proofs.Bus.Cells
import ChipScore.Proofs.Cpu.Requests

/-!
# Routed memory

An address space in which one memory of `2 ^ 16` bytes answers everywhere is a detour: every access
is routed to the only region, and comes out at the address it went in with.  So the space holds the
bytes of a flat memory and keeps holding them (`isBisimulation_routesTo`), and no processor can tell
which of the two it drives (`serveAll_flat_eq_routed`).

The two need not be given as the same memory.  That equal bytes are equal memories
(`Ram.eq_of_sameBytes`) is what makes bytes enough.
-/

namespace ChipScore

/-- Two buses hold the same bytes when no read tells them apart. -/
def Bus.SameBytes {β γ : Type} [Bus β] [Bus γ] (b : β) (c : γ) : Prop :=
  ∀ address, Bus.read b address = Bus.read c address

/-- Flat memories that hold the same bytes are equal. -/
lemma Ram.eq_of_sameBytes {ram other : FlatMemory} (h : Bus.SameBytes ram other) :
    ram = other := by
  refine Ram.eq_of_read fun offset hlt => ?_
  have hbyte := h (UInt16.ofNatLT offset hlt)
  change ram.read (UInt16.ofNatLT offset hlt).toNat = other.read (UInt16.ofNatLT offset hlt).toNat
    at hbyte
  rwa [UInt16.toNat_ofNatLT] at hbyte

namespace AddressSpace

/-- A window over all addresses. -/
def everywhere (name : String) : Window :=
  ⟨name, 0x0000, 0xFFFF⟩

/-- A window over all addresses leaves none out. -/
lemma contains_everywhere (name : String) (address : UInt16) :
    (everywhere name).contains address = true := by
  have hle : address ≤ 0xFFFF := by
    rw [UInt16.le_iff_toNat_le]
    exact Nat.le_of_lt_succ address.toNat_lt
  simp [Window.contains, everywhere, hle]

/-- In a window over all addresses the offset is the address. -/
lemma sub_first_everywhere (name : String) (address : UInt16) :
    address - (everywhere name).first = address :=
  UInt16.sub_zero address

/-- The space has one region, behind which a flat memory answers at every address. -/
def RoutesTo (ram : FlatMemory) (space : AddressSpace (Ram 65536)) : Prop :=
  ∃ name, space = ⟨#[⟨everywhere name, ram⟩]⟩

/-- Attaching a memory at all addresses, alone, routes everything to it. -/
lemma routesTo_of_attach {name : String} {ram : FlatMemory} {space : AddressSpace (Ram 65536)}
    (h : AddressSpace.empty.attach (everywhere name) ram = .ok space) : RoutesTo ram space :=
  ⟨name, (Except.ok.inj h).symm⟩

/-- A write to the only region is a write to the memory behind it. -/
lemma write_everywhere (name : String) (ram : FlatMemory) (address : UInt16) (value : UInt8) :
    Bus.write (⟨#[⟨everywhere name, ram⟩]⟩ : AddressSpace (Ram 65536)) address value =
      ⟨#[⟨everywhere name, Bus.write ram address value⟩]⟩ := by
  change AddressSpace.write _ address value = _
  simp only [AddressSpace.write, route, contains_everywhere, List.findIdx?_toArray,
    List.findIdx?_cons, if_true, List.modify_toArray, List.modify_cons]
  rw [sub_first_everywhere]
  rfl

/-- Routing to the only region changes nothing about an access. -/
lemma isBisimulation_routesTo : Bus.IsBisimulation RoutesTo where
  read := by
    rintro ram _ ⟨name, rfl⟩ address
    change _ = AddressSpace.read _ address
    simp only [AddressSpace.read, contains_everywhere, List.find?_toArray, List.find?_cons]
    rw [sub_first_everywhere]
    rfl
  write := by
    rintro ram _ ⟨name, rfl⟩ address value
    exact ⟨name, write_everywhere name ram address value⟩

end AddressSpace

namespace Cpu

/-- **Routed memory is flat memory.**  Let a processor drive a flat memory, and another one an
address space whose only region is a memory attached at all addresses.  If they hold the same bytes
and are alike in their registers, flags, counters and policies, they answer alike whatever they are
asked for, faults and refused images included, and afterwards they are still alike and hold the same
bytes at every address. -/
theorem serveAll_flat_eq_routed {name : String} {ram : FlatMemory}
    {space : AddressSpace (Ram 65536)} {s : Cpu FlatMemory} {t : Cpu (AddressSpace (Ram 65536))}
    (hspace : AddressSpace.empty.attach ⟨name, 0x0000, 0xFFFF⟩ ram = .ok space)
    (hbus : t.bus = space) (halike : Alike Bus.SameBytes s t) (requests : List Request) :
    (s.serveAll requests).2 = (t.serveAll requests).2 ∧
      Alike Bus.SameBytes (s.serveAll requests).1 (t.serveAll requests).1 := by
  have hroutes : AddressSpace.RoutesTo ram t.bus := by
    rw [hbus]
    exact AddressSpace.routesTo_of_attach hspace
  -- the two memories hold the same bytes, so that they are one
  have hsame : s.bus = ram := Ram.eq_of_sameBytes fun address =>
    (halike.bus address).trans (AddressSpace.isBisimulation_routesTo.read hroutes address).symm
  have hrouted : Alike AddressSpace.RoutesTo s t := halike.of_bus (by rwa [hsame])
  obtain ⟨hserved, hanswers⟩ := hrouted.serveAll AddressSpace.isBisimulation_routesTo requests
  exact ⟨hanswers, hserved.of_bus (AddressSpace.isBisimulation_routesTo.read hserved.bus)⟩

/-- A memory with the routine `INC $0200; RTS` and, behind it, an unbound opcode. -/
def countingMemory : FlatMemory :=
  (Ram.zero 65536).load 0x0400 [0xEE, 0x00, 0x02, 0x60, 0x02]

/-- A call of the routine, a look at what it has counted, an image that is too large, and the unbound
opcode. -/
def countingRequests : List Request :=
  [.write 0x0200 0x7F, .call 0x0400, .stepInstruction, .run 7, .read 0x0200,
    .loadImage [0xEA, 0xEA] 0xFFFF, .resume, .call 0x0404, .step]

/-- Behind an address space, the memory counts, the image is refused and the opcode is a fault. -/
theorem serveAll_flat_eq_routed_countingMemory :
    ∃ space, AddressSpace.empty.attach ⟨"ram", 0x0000, 0xFFFF⟩ countingMemory = .ok space ∧
      ((reset space .fail).serveAll countingRequests).2 =
        [.done, .done, .spent 6, .spent 7, .byte 0x80, .refused ⟨2, 0xFFFF⟩, .done, .done,
          .fault ⟨0x02, 0x0404⟩] := by
  have hanswers : ((reset countingMemory .fail).serveAll countingRequests).2 =
      [.done, .done, .spent 6, .spent 7, .byte 0x80, .refused ⟨2, 0xFFFF⟩, .done, .done,
        .fault ⟨0x02, 0x0404⟩] := by
    decide +kernel
  obtain ⟨space, hspace⟩ : ∃ space,
      AddressSpace.empty.attach ⟨"ram", 0x0000, 0xFFFF⟩ countingMemory = .ok space := ⟨_, rfl⟩
  have hsame : Bus.SameBytes countingMemory space :=
    fun address => AddressSpace.isBisimulation_routesTo.read
      (AddressSpace.routesTo_of_attach hspace) address
  have halike : Alike Bus.SameBytes (reset countingMemory .fail) (reset space .fail) := by
    refine ⟨⟨rfl, rfl, rfl, rfl, ?_, rfl, rfl, rfl, rfl, hsame⟩, rfl⟩
    exact congrArg₂ Word.ofBytes (hsame resetVector) (hsame (resetVector + 1))
  refine ⟨space, hspace, ?_⟩
  rw [← (serveAll_flat_eq_routed hspace rfl halike countingRequests).1, hanswers]

end Cpu

end ChipScore
