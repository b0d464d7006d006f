import Mathlib.Tactic
import ChipScore.Bus.Ram
import ChipScore.Proofs.Cpu.Agreement

/-!
# Cells and writes

A bus may do anything with a write.  `Bus.IsCell` says of one address of a bus that it is a plain
cell: whatever is written to the bus, a read there returns the byte that was written there last.
All addresses of a flat memory are plain cells (`isCell_flatMemory`).

The writes of a run are those that a recorder in front of the bus has seen, and they are all that
the run does to its bus (`Cpu.run_bus_eq_writeAll`).
-/

namespace ChipScore

namespace Bus

/-- The byte that writes, the oldest first, leave at an address. -/
def lastWritten (address : UInt16) (before : UInt8) (writes : List Access) : UInt8 :=
  writes.foldl (fun value w => if w.address = address then w.value else value) before

/-- Writes to other addresses leave the byte that was there before. -/
lemma lastWritten_of_forall_ne {address : UInt16} {writes : List Access}
    (h : ∀ w ∈ writes, w.address ≠ address) (before : UInt8) :
    lastWritten address before writes = before := by
  induction writes generalizing before with
  | nil => rfl
  | cons w rest ih =>
    rw [List.forall_mem_cons] at h
    rw [lastWritten, List.foldl_cons, if_neg h.1]
    exact ih h.2 before

variable {β : Type} [Bus β]

/-- The bus after writes, the oldest first. -/
def writeAll (bus : β) (writes : List Access) : β :=
  writes.foldl (fun bus w => write bus w.address w.value) bus

lemma writeAll_append (bus : β) (writes later : List Access) :
    writeAll bus (writes ++ later) = writeAll (writeAll bus writes) later :=
  List.foldl_append

/-- An address is a plain cell of a bus when a read there always returns the byte that was written
there last. -/
def IsCell (bus : β) (address : UInt16) : Prop :=
  ∀ writes, read (writeAll bus writes) address = lastWritten address (read bus address) writes

/-- A plain cell stays one. -/
lemma IsCell.writeAll {bus : β} {address : UInt16} (h : IsCell bus address)
    (writes : List Access) : IsCell (writeAll bus writes) address := by
  intro later
  rw [← writeAll_append, h, h, lastWritten, List.foldl_append]
  rfl

/-- An address is a plain cell of every bus if one write always behaves so. -/
lemma isCell_of_read_write {address : UInt16}
    (h : ∀ (bus : β) (other : UInt16) (value : UInt8),
      read (write bus other value) address = if other = address then value else read bus address)
    (bus : β) : IsCell bus address := by
  intro writes
  induction writes generalizing bus with
  | nil => rfl
  | cons w rest ih =>
    have hrest := ih (write bus w.address w.value)
    rw [h] at hrest
    exact hrest

/-- A recorder that was set up in front of one bus stands in front of another: the writes that it
has kept have led from the one to the other. -/
def Recorded.Follows (start : β) (r : Recorded β) (bus : β) : Prop :=
  r.bus = bus ∧ bus = writeAll start r.writes.toList

/-- The recorder changes nothing, and what it has kept are the writes since it was set up. -/
lemma isBisimulation_follows (start : β) : IsBisimulation (Recorded.Follows start) where
  read h address := by
    rw [← h.1]
    rfl
  write := by
    rintro r _ ⟨rfl, hbus⟩ address value
    refine ⟨rfl, ?_⟩
    change write r.bus address value = writeAll start (r.writes.push ⟨address, value⟩).toList
    rw [Array.toList_push, writeAll_append, ← hbus]
    rfl

end Bus

/-! ### Memories -/

/-- A byte that is written inside a memory is read back at its offset and nowhere else. -/
lemma Ram.read_write {size : Nat} (ram : Ram size) {offset : Nat} (h : offset < size)
    (value : UInt8) (other : Nat) :
    (ram.write offset value).read other = if offset = other then value else ram.read other := by
  unfold Ram.write Ram.read
  rw [dif_pos h]
  split_ifs with hother heq heq
  · subst heq
    exact Vector.getElem_set_self _
  · exact Vector.getElem_set_ne h hother heq
  · omega
  · rfl

/-- What is loaded into a memory lies where it is loaded to. -/
lemma Ram.read_load {size : Nat} (ram : Ram size) (base : Nat) (image : List UInt8) {offset : Nat}
    (h : offset < size) :
    (ram.load base image).read offset =
      if base ≤ offset then image.getD (offset - base) (ram.read offset) else ram.read offset := by
  induction image generalizing ram base with
  | nil => simp [load]
  | cons value rest ih =>
    rw [load]
    by_cases hbase : base < size
    · rw [if_pos hbase, ih, Ram.read_write ram hbase]
      rcases Nat.lt_trichotomy base offset with hlt | rfl | hgt
      · -- behind the first byte, the rest of the image is loaded one address further on
        have hindex : offset - base = offset - (base + 1) + 1 := by omega
        rw [if_pos (Nat.succ_le_of_lt hlt), if_neg (Nat.ne_of_lt hlt), if_pos (Nat.le_of_lt hlt),
          hindex, List.getD_cons_succ]
      · rw [if_neg (Nat.not_succ_le_self base), if_pos rfl, if_pos (Nat.le_refl base),
          Nat.sub_self, List.getD_cons_zero]
      · rw [if_neg (by omega), if_neg (by omega), if_neg (by omega)]
    · rw [if_neg hbase, if_neg (by omega)]

/-- A new memory is filled with zeros. -/
lemma Ram.read_zero {size : Nat} (offset : Nat) : (Ram.zero size).read offset = 0 := by
  unfold Ram.read
  split_ifs with h
  · exact Vector.getElem_replicate h
  · rfl

/-- Memories that hold the same bytes are equal. -/
lemma Ram.eq_of_read {size : Nat} {ram other : Ram size}
    (h : ∀ offset < size, ram.read offset = other.read offset) : ram = other := by
  have hcells : ram.cells = other.cells := by
    refine Vector.ext fun i hi => ?_
    have hbyte := h i hi
    rw [Ram.read, Ram.read, dif_pos hi, dif_pos hi] at hbyte
    exact hbyte
  cases ram
  cases other
  exact congrArg Ram.mk hcells

/-- A byte written to a flat memory is read back at its address and nowhere else. -/
lemma FlatMemory.read_write (ram : FlatMemory) (address other : UInt16) (value : UInt8) :
    Bus.read (Bus.write ram address value) other =
      if address = other then value else Bus.read ram other := by
  change (Ram.write ram address.toNat value).read other.toNat = _
  rw [Ram.read_write ram address.toNat_lt]
  simp only [UInt16.toNat_inj]
  rfl

/-- Every address of a flat memory is a plain cell. -/
lemma isCell_flatMemory (ram : FlatMemory) (address : UInt16) : Bus.IsCell ram address :=
  Bus.isCell_of_read_write (fun bus other value => FlatMemory.read_write bus other address value)
    ram

/-! ### The writes of a run -/

namespace Cpu

variable {β : Type} [Bus β]

/-- The processor with a recorder in front of its bus. -/
def recorded (s : Cpu β) : Cpu (Bus.Recorded β) :=
  { s with bus := ⟨#[], s.bus⟩ }

/-- The recorder does not disturb the processor, and what it keeps is all that happens to the bus. -/
lemma agree_recorded (s : Cpu β) :
    Agree (Bus.Recorded.Follows s.bus) s.recorded s :=
  ⟨rfl, rfl, rfl, rfl, rfl, rfl, rfl, rfl, rfl, rfl, rfl⟩

/-- The writes of a run, the oldest first. -/
def writes (s : Cpu β) (n : Nat) : List Bus.Access :=
  (s.recorded.run n).1.bus.writes.toList

/-- A run does nothing to its bus but its writes. -/
lemma run_bus_eq_writeAll (s : Cpu β) (n : Nat) :
    (s.run n).1.bus = Bus.writeAll s.bus (s.writes n) :=
  (s.agree_recorded.run (Bus.isBisimulation_follows s.bus) rfl n).1.bus.2

end Cpu

end ChipScore
