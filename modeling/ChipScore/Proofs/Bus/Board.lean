import Mathlib.Tactic
import ChipScore.Player.Board
import ChipScore.Proofs.Bus.Cells
import ChipScore.Proofs.Bus.Routing
import ChipScore.Proofs.Sound.Independence

/-!
# The chip's window

The board puts the window of the chip in front of its memory.  `Board.Isolates` says what that makes
of a history of writes: the memory under the window stays as it was loaded, reads in the window give
zero, every other address is a cell of memory, and the chip has latched those writes, and only
those, that went into its window.  A write keeps all this (`Isolates.write`), and so does a frame
that ends (`Isolates.finishFrame`), since the transcribers only look.

The board is an address space in disguise: it is what attaching the chip first and the memory
afterwards comes to (`isBisimulation_assembled`).
-/

namespace ChipScore

/-! ### Latches -/

namespace VoiceBank

/-- Two chips have latched the same bytes. -/
structure SameLatches (bank other : VoiceBank) : Prop where
  /-- The registers of the voices. -/
  registers : ∀ v, (bank.voice v).registers = (other.voice v).registers
  /-- The registers of the filter. -/
  filter : bank.filter = other.filter

/-- The register at which the chip answers an address in its window, which begins at `$D400` and
repeats the thirty-two registers. -/
def registerAt (address : UInt16) : UInt8 :=
  UInt8.ofNat (ChipOperation.register (address - 0xD400))

/-- The chip after writes on the bus, all of them in the chip's window. -/
def pokeAll (bank : VoiceBank) (writes : List Bus.Access) : VoiceBank :=
  writes.foldl (fun bank w => bank.poke (registerAt w.address) w.value) bank

/-- One more write in the chip's window is one more poke. -/
lemma pokeAll_concat (bank : VoiceBank) (writes : List Bus.Access) (w : Bus.Access) :
    bank.pokeAll (writes ++ [w]) = (bank.pokeAll writes).poke (registerAt w.address) w.value :=
  List.foldl_append

variable {bank other : VoiceBank}

/-- Chips that have latched the same latch the same byte alike. -/
lemma SameLatches.poke (h : SameLatches bank other) (r value : UInt8) :
    SameLatches (bank.poke r value) (other.poke r value) where
  registers v := by
    rw [voice_poke, voice_poke]
    split_ifs
    · exact congrArg (VoiceRegisters.write · (r % 7) value) (h.registers v)
    · exact h.registers v
  filter := by rw [filter_poke, filter_poke, h.filter]

/-- Transcribers look at what is latched and leave it alone. -/
lemma SameLatches.finishFrame (h : SameLatches bank other) (clock : FrameClock) :
    SameLatches (bank.finishFrame clock) other where
  registers v := by
    rw [voice_finishFrame]
    exact h.registers v
  filter := h.filter

end VoiceBank

/-! ### The window and the memory -/

namespace Board

/-- An address lies in the chip's window. -/
def InChipWindow (address : UInt16) : Prop :=
  0xD400 ≤ address.toNat ∧ address.toNat ≤ 0xD7FF

instance (address : UInt16) : Decidable (InChipWindow address) :=
  inferInstanceAs (Decidable (_ ∧ _))

/-- The window for which the address space tests is that of `InChipWindow`. -/
lemma contains_chipWindow_iff {address : UInt16} :
    chipWindow.contains address = true ↔ InChipWindow address := by
  simp [Window.contains, chipWindow, InChipWindow, UInt16.le_iff_toNat_le]

lemma contains_chipWindow_eq_false {address : UInt16} (h : ¬InChipWindow address) :
    chipWindow.contains address = false := by
  simpa using h ∘ contains_chipWindow_iff.mp

/-- The memory lies behind all addresses. -/
lemma ramWindow_eq : ramWindow = AddressSpace.everywhere "ram" :=
  rfl

/-- What keeping the chip and the memory apart makes of a board that began with the bytes `loaded`
in its memory and with a chip, and has absorbed writes since. -/
structure Isolates (loaded : UInt16 → UInt8) (chip : VoiceBank) (writes : List Bus.Access)
    (board : Board) : Prop where
  /-- Memory under the window stays as it was loaded. -/
  shadowed : ∀ address, InChipWindow address → Bus.read board.ram address = loaded address
  /-- A read in the window gives zero. -/
  window : ∀ address, InChipWindow address → Bus.read board address = 0
  /-- Every other address holds what was written there last, or what was loaded. -/
  memory : ∀ address, ¬InChipWindow address →
    Bus.read board address = Bus.lastWritten address (loaded address) writes
  /-- The chip has latched the writes in the window, in their order, and nothing else. -/
  latches : board.chip.SameLatches
    (chip.pokeAll (writes.filter fun w => InChipWindow w.address))

variable {loaded : UInt16 → UInt8} {chip : VoiceBank} {writes : List Bus.Access} {board : Board}
  {address : UInt16} {value : UInt8}

/-- No byte of the chip can be read: its window reads as zero, whatever the memory under it holds.
-/
lemma read_of_inChipWindow (board : Board) (h : InChipWindow address) : Bus.read board address = 0 := by
  change (if chipWindow.contains address then _ else _) = (0 : UInt8)
  rw [if_pos (contains_chipWindow_iff.mpr h)]
  rfl

/-- Outside the window the memory answers a read. -/
lemma read_of_not_inChipWindow (board : Board) (h : ¬InChipWindow address) :
    Bus.read board address = Bus.read board.ram address := by
  change (if chipWindow.contains address then _ else _) = _
  rw [if_neg (h ∘ contains_chipWindow_iff.mp)]

/-- In its window the chip answers at the register that its address lines select. -/
lemma write_offset (chip : VoiceBank) (address : UInt16) (value : UInt8) :
    Device.write chip (address - chipWindow.first) value =
      chip.poke (VoiceBank.registerAt address) value := by
  have hregister : VoiceBank.register (address - chipWindow.first) =
      VoiceBank.registerAt address := by
    have hlt : ChipOperation.register (address - 0xD400) < 256 := by
      unfold ChipOperation.register
      omega
    rw [← UInt8.toNat_inj, VoiceBank.toNat_register, VoiceBank.registerAt,
      UInt8.toNat_ofNat_of_lt' hlt]
    rfl
  rw [← hregister]
  rfl

/-- A write in the window is latched by the chip, and does not reach the memory. -/
lemma write_of_inChipWindow (board : Board) (value : UInt8) (h : InChipWindow address) :
    Bus.write board address value =
      { board with chip := board.chip.poke (VoiceBank.registerAt address) value } := by
  change (if chipWindow.contains address then _ else _) = _
  rw [if_pos (contains_chipWindow_iff.mpr h), write_offset]

/-- A write outside the window reaches the memory, and the chip does not notice. -/
lemma write_of_not_inChipWindow (board : Board) (value : UInt8) (h : ¬InChipWindow address) :
    Bus.write board address value = { board with ram := Bus.write board.ram address value } := by
  change (if chipWindow.contains address then _ else _) = _
  rw [if_neg (h ∘ contains_chipWindow_iff.mp)]

/-! ### What a history of writes leaves behind -/

/-- A board that has absorbed nothing. -/
lemma isolates_nil (hloaded : ∀ address, Bus.read board.ram address = loaded address) :
    Isolates loaded board.chip [] board where
  shadowed address _ := hloaded address
  window _ h := board.read_of_inChipWindow h
  memory address h := (board.read_of_not_inChipWindow h).trans (hloaded address)
  latches := ⟨fun _ => rfl, rfl⟩

namespace Isolates

/-- A write goes to the chip or to the memory, and is the last one at its address. -/
lemma write (h : Isolates loaded chip writes board) (address : UInt16) (value : UInt8) :
    Isolates loaded chip (writes ++ [⟨address, value⟩]) (Bus.write board address value) := by
  have hlast (other : UInt16) : Bus.lastWritten other (loaded other) (writes ++ [⟨address, value⟩]) =
      if address = other then value else Bus.lastWritten other (loaded other) writes :=
    List.foldl_append
  by_cases hwindow : InChipWindow address
  · rw [write_of_inChipWindow board value hwindow]
    refine ⟨h.shadowed, fun other hother => read_of_inChipWindow _ hother, ?_, ?_⟩
    · intro other hother
      have hne : address ≠ other := by
        rintro rfl
        exact hother hwindow
      rw [hlast, if_neg hne, read_of_not_inChipWindow _ hother,
        ← read_of_not_inChipWindow board hother]
      exact h.memory other hother
    · rw [List.filter_append, List.filter_cons_of_pos (by simpa using hwindow), List.filter_nil,
        VoiceBank.pokeAll_concat]
      exact h.latches.poke _ value
  · rw [write_of_not_inChipWindow board value hwindow]
    refine ⟨?_, fun other hother => read_of_inChipWindow _ hother, ?_, ?_⟩
    · intro other hother
      have hne : address ≠ other := by
        rintro rfl
        exact hwindow hother
      rw [FlatMemory.read_write, if_neg hne]
      exact h.shadowed other hother
    · intro other hother
      rw [hlast, read_of_not_inChipWindow _ hother, FlatMemory.read_write,
        ← read_of_not_inChipWindow board hother, h.memory other hother]
    · rw [List.filter_append, List.filter_cons_of_neg (by simpa using hwindow), List.filter_nil,
        List.append_nil]
      exact h.latches

/-- The end of a frame writes nothing. -/
lemma finishFrame (h : Isolates loaded chip writes board) (clock : FrameClock) :
    Isolates loaded chip writes { board with chip := board.chip.finishFrame clock } where
  shadowed := h.shadowed
  window _ hwindow := read_of_inChipWindow _ hwindow
  memory address hwindow := by
    rw [read_of_not_inChipWindow _ hwindow, ← read_of_not_inChipWindow board hwindow]
    exact h.memory address hwindow
  latches := h.latches.finishFrame clock

/-- Further writes are kept apart like those before them. -/
lemma writeAll (h : Isolates loaded chip writes board) (later : List Bus.Access) :
    Isolates loaded chip (writes ++ later) (Bus.writeAll board later) := by
  induction later generalizing writes board with
  | nil => rwa [List.append_nil]
  | cons w rest ih =>
    have hrest := ih (h.write w.address w.value)
    rwa [List.append_assoc] at hrest

end Isolates

/-! ### The board as an address space -/

/-- Either of two devices. -/
instance {δ ε : Type} [Device δ] [Device ε] : Device (δ ⊕ ε) where
  read
    | .inl device, offset => Device.read device offset
    | .inr device, offset => Device.read device offset
  write
    | .inl device, offset, value => .inl (Device.write device offset value)
    | .inr device, offset, value => .inr (Device.write device offset value)

/-- An address space to which the chip has been attached first, and the memory behind it. -/
def Assembled (board : Board) (space : AddressSpace (VoiceBank ⊕ Ram 65536)) : Prop :=
  (AddressSpace.empty.attach chipWindow (.inl board.chip)).bind
    (fun space => space.attach ramWindow (.inr board.ram)) = .ok space

/-- Both attachments succeed, and the chip's window comes first. -/
lemma assembled_iff {space : AddressSpace (VoiceBank ⊕ Ram 65536)} :
    Assembled board space ↔
      space = ⟨#[⟨chipWindow, .inl board.chip⟩, ⟨ramWindow, .inr board.ram⟩]⟩ := by
  unfold Assembled
  change Except.ok _ = Except.ok space ↔ _
  rw [Except.ok.injEq, eq_comm]
  rfl

/-- The board is the address space that is put together in this order. -/
lemma isBisimulation_assembled : Bus.IsBisimulation Assembled where
  read := by
    intro board space h address
    rw [assembled_iff.mp h]
    change _ = AddressSpace.read _ address
    unfold AddressSpace.read
    by_cases hwindow : InChipWindow address
    · have hchip := contains_chipWindow_iff.mpr hwindow
      rw [read_of_inChipWindow board hwindow]
      simp only [List.find?_toArray, List.find?_cons, hchip]
      rfl
    · have hchip := contains_chipWindow_eq_false hwindow
      rw [read_of_not_inChipWindow board hwindow]
      simp only [List.find?_toArray, List.find?_cons, hchip, ramWindow_eq,
        AddressSpace.contains_everywhere]
      rw [AddressSpace.sub_first_everywhere]
      rfl
  write := by
    intro board space h address value
    rw [assembled_iff.mp h, assembled_iff]
    change AddressSpace.write _ address value = _
    unfold AddressSpace.write AddressSpace.route
    by_cases hwindow : InChipWindow address
    · have hchip := contains_chipWindow_iff.mpr hwindow
      rw [write_of_inChipWindow board value hwindow, ← write_offset]
      simp only [List.findIdx?_toArray, List.findIdx?_cons, hchip, if_true, List.modify_toArray,
        List.modify_cons]
      rfl
    · have hchip := contains_chipWindow_eq_false hwindow
      rw [write_of_not_inChipWindow board value hwindow]
      simp only [List.findIdx?_toArray, List.findIdx?_cons, hchip, ramWindow_eq,
        AddressSpace.contains_everywhere, if_true, List.modify_toArray, List.modify_cons]
      rw [AddressSpace.sub_first_everywhere]
      rfl

end Board

end ChipScore
