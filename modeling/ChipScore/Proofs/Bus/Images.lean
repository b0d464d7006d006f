import Mathlib.Data.List.GetD
import Mathlib.Tactic
import ChipScore.Proofs.Bus.Routing

/-!
# Images in memory

An image gets into a memory in two ways.  A processor writes it through its bus, byte by byte at
addresses that wrap, and refuses it beforehand if it does not end within the addresses.  Or it is
copied into the memory itself, where what does not fit is cut off.

Copying is described from the outside by `Ram.Receives`: which bytes are where afterwards, that the
bytes could have been written one by one, and that they replace one slice of the memory.  Where the
image fits no address wraps, and writing it through the bus is copying it (`writeFrom_eq_load`).
-/

namespace ChipScore

/-! ### Copying -/

namespace Ram

variable {size : Nat}

/-- What a memory is like after bytes are copied to an offset. -/
structure Receives (ram : Ram size) (offset : Nat) (bytes : List UInt8) (after : Ram size) :
    Prop where
  /-- Every byte that fits is where it was copied to. -/
  inside : ∀ i (hi : i < bytes.length), offset + i < size → after.read (offset + i) = bytes[i]
  /-- Everything else is as before, in front of the offset and behind the bytes. -/
  outside : ∀ other, other < offset ∨ offset + bytes.length ≤ other →
    after.read other = ram.read other
  /-- What does not fit makes no difference. -/
  fitting : after = ram.load offset (bytes.take (size - offset))
  /-- The bytes could have been written one by one, those past the end being lost. -/
  one_by_one : after =
    (bytes.zipIdx offset).foldl (fun memory byte => memory.write byte.2 byte.1) ram
  /-- They replace one slice, both ends of which are cut off at the end of the memory. -/
  slice : after.cells.toList = ram.cells.toList.take (min offset size) ++
    bytes.take (min (min offset size + bytes.length) size - min offset size) ++
      ram.cells.toList.drop (min (min offset size + bytes.length) size)

lemma read_of_le (ram : Ram size) {offset : Nat} (h : size ≤ offset) : ram.read offset = 0 :=
  dif_neg (Nat.not_lt.mpr h)

lemma write_of_le (ram : Ram size) {offset : Nat} (h : size ≤ offset) (value : UInt8) :
    ram.write offset value = ram :=
  dif_neg (Nat.not_lt.mpr h)

/-- Nothing can be copied past the end. -/
lemma load_of_le (ram : Ram size) {offset : Nat} (h : size ≤ offset) (bytes : List UInt8) :
    ram.load offset bytes = ram := by
  cases bytes with
  | nil => rfl
  | cons value rest => rw [load, if_neg (Nat.not_lt.mpr h)]

/-- Nothing is left of bytes that are written one by one past the end. -/
lemma foldl_write_of_le (ram : Ram size) {offset : Nat} (h : size ≤ offset) (bytes : List UInt8) :
    (bytes.zipIdx offset).foldl (fun memory byte => memory.write byte.2 byte.1) ram =
      ram := by
  induction bytes generalizing offset with
  | nil => rfl
  | cons value rest ih =>
    rw [List.zipIdx_cons, List.foldl_cons, ram.write_of_le h]
    exact ih (h.trans (Nat.le_succ offset))

/-- Copying is writing one by one. -/
lemma load_eq_foldl_write (ram : Ram size) (offset : Nat) (bytes : List UInt8) :
    ram.load offset bytes =
      (bytes.zipIdx offset).foldl (fun memory byte => memory.write byte.2 byte.1) ram := by
  induction bytes generalizing ram offset with
  | nil => rfl
  | cons value rest ih =>
    by_cases h : offset < size
    · rw [load, if_pos h, ih, List.zipIdx_cons, List.foldl_cons]
    · rw [ram.load_of_le (Nat.not_lt.mp h), ram.foldl_write_of_le (Nat.not_lt.mp h)]

/-- Every byte that fits is where it was copied to. -/
lemma read_load_of_mem (ram : Ram size) {offset i : Nat} {bytes : List UInt8}
    (hi : i < bytes.length) (h : offset + i < size) :
    (ram.load offset bytes).read (offset + i) = bytes[i] := by
  rw [ram.read_load offset bytes h, if_pos (Nat.le_add_right offset i), Nat.add_sub_cancel_left,
    List.getD_eq_getElem _ _ hi]

/-- Copying leaves alone what is in front of the offset and what is behind the bytes. -/
lemma read_load_of_notMem (ram : Ram size) {offset other : Nat} {bytes : List UInt8}
    (h : other < offset ∨ offset + bytes.length ≤ other) :
    (ram.load offset bytes).read other = ram.read other := by
  by_cases hlt : other < size
  · rw [ram.read_load offset bytes hlt]
    split_ifs with hle
    · rw [List.getD_eq_default]
      omega
    · rfl
  · rw [read_of_le _ (Nat.not_lt.mp hlt), read_of_le _ (Nat.not_lt.mp hlt)]

/-- Bytes that do not fit make no difference. -/
lemma load_take (ram : Ram size) (offset : Nat) (bytes : List UInt8) :
    ram.load offset (bytes.take (size - offset)) = ram.load offset bytes := by
  refine eq_of_read fun other hlt => ?_
  rw [ram.read_load _ _ hlt, ram.read_load _ _ hlt]
  split_ifs with hle
  · rw [List.getD_eq_getElem?_getD, List.getD_eq_getElem?_getD,
      List.getElem?_take_of_lt (by omega)]
  · rfl

/-- The list of the cells has at every place what is read there. -/
lemma getElem_toList_cells (ram : Ram size) {i : Nat} (h : i < ram.cells.toList.length) :
    ram.cells.toList[i] = ram.read i := by
  have hlt : i < size := by simpa using h
  rw [read, dif_pos hlt]
  rfl

/-- Copying replaces one slice. -/
lemma toList_cells_load (ram : Ram size) (offset : Nat) (bytes : List UInt8) :
    (ram.load offset bytes).cells.toList = ram.cells.toList.take (min offset size) ++
      bytes.take (min (min offset size + bytes.length) size - min offset size) ++
        ram.cells.toList.drop (min (min offset size + bytes.length) size) := by
  have hlength : ram.cells.toList.length = size := by simp
  refine List.ext_getElem ?_ fun i hi hi' => ?_
  · simp only [List.length_append, List.length_take, List.length_drop, hlength,
      Vector.length_toList]
    omega
  · have hlt : i < size := by simpa using hi
    rw [getElem_toList_cells]
    -- the place is in front of the slice, in it, or behind it
    by_cases hfront : i < offset
    · rw [read_load_of_notMem _ (.inl hfront), List.getElem_append_left (by simp; omega),
        List.getElem_append_left (by simp; omega), List.getElem_take, getElem_toList_cells]
    · obtain ⟨k, rfl⟩ := Nat.exists_eq_add_of_le (Nat.not_lt.mp hfront)
      by_cases hwithin : k < bytes.length
      · rw [read_load_of_mem _ hwithin hlt, List.getElem_append_left (by simp; omega),
          List.getElem_append_right (by simp), List.getElem_take]
        congr 1
        simp only [List.length_take, hlength]
        omega
      · rw [read_load_of_notMem _ (.inr (by omega)), List.getElem_append_right (by simp; omega),
          List.getElem_drop, getElem_toList_cells]
        congr 1
        simp only [List.length_append, List.length_take, hlength]
        omega

/-- **Copying**, from the outside. -/
lemma receives_load (ram : Ram size) (offset : Nat) (bytes : List UInt8) :
    ram.Receives offset bytes (ram.load offset bytes) where
  inside _ hi h := ram.read_load_of_mem hi h
  outside _ h := ram.read_load_of_notMem h
  fitting := (ram.load_take offset bytes).symm
  one_by_one := ram.load_eq_foldl_write offset bytes
  slice := ram.toList_cells_load offset bytes

end Ram

/-! ### Writing through a bus -/

/-- Where an image fits, writing it to a flat memory is copying it. -/
lemma Bus.writeFrom_eq_load (ram : FlatMemory) (base : UInt16) (image : List UInt8)
    (h : base.toNat + image.length ≤ 65536) :
    Bus.writeFrom ram base image = ram.load base.toNat image := by
  induction image generalizing ram base with
  | nil => rfl
  | cons value rest ih =>
    rw [List.length_cons] at h
    rw [Bus.writeFrom, Ram.load, if_pos base.toNat_lt]
    cases rest with
    | nil => rfl
    | cons next others =>
      -- another byte follows, so that the next address does not wrap
      rw [List.length_cons] at h
      have hnext : (base + 1).toNat = base.toNat + 1 := by
        rw [UInt16.toNat_add]
        change (base.toNat + 1) % 65536 = base.toNat + 1
        omega
      rw [ih _ _ (by rw [List.length_cons]; omega), hnext]
      rfl

/-- An image that is written to the only region is written to the memory behind it. -/
lemma AddressSpace.writeFrom_everywhere (name : String) (ram : FlatMemory) (base : UInt16)
    (image : List UInt8) :
    Bus.writeFrom (⟨#[⟨everywhere name, ram⟩]⟩ : AddressSpace (Ram 65536)) base image =
      ⟨#[⟨everywhere name, Bus.writeFrom ram base image⟩]⟩ := by
  induction image generalizing ram base with
  | nil => rfl
  | cons value rest ih => rw [Bus.writeFrom, write_everywhere, ih, Bus.writeFrom]

namespace Cpu

/-- How a processor takes an image, if a memory answers at all addresses of its bus. -/
structure TakesImage (s : Cpu (AddressSpace (Ram 65536))) (name : String) (ram : FlatMemory)
    (image : List UInt8) (base : UInt16) : Prop where
  /-- The image is accepted just if it ends within the addresses. -/
  accepted_iff : (∃ t, s.loadImage image base = .ok t) ↔ base.toNat + image.length ≤ 65536
  /-- Then the memory is what copying the image makes of it, and nothing else changes. -/
  accepted : base.toNat + image.length ≤ 65536 →
    ∃ space, AddressSpace.empty.attach ⟨name, 0x0000, 0xFFFF⟩ (ram.load base.toNat image) =
      .ok space ∧ s.loadImage image base = .ok { s with bus := space }
  /-- Otherwise the image is refused, nothing changes and no write reaches the bus. -/
  refused : 65536 < base.toNat + image.length →
    s.serve (.loadImage image base) = (s, .refused ⟨image.length, base⟩) ∧
      (s.recorded.serve (.loadImage image base)).1.bus.writes = #[]

section LoadImage

variable {β : Type} [Bus β] {image : List UInt8} {base : UInt16}

/-- An image that ends within the addresses is written to the bus. -/
lemma loadImage_of_le (s : Cpu β) (h : base.toNat + image.length ≤ 65536) :
    s.loadImage image base = .ok { s with bus := Bus.writeFrom s.bus base image } :=
  if_neg (Nat.not_lt.mpr h)

/-- An image that does not end within the addresses is refused, with its length and its base. -/
lemma loadImage_of_lt (s : Cpu β) (h : 65536 < base.toNat + image.length) :
    s.loadImage image base = .error ⟨image.length, base⟩ :=
  if_pos h

/-- A refused image leaves the processor and its bus as they are. -/
lemma serve_loadImage_of_lt (s : Cpu β) (h : 65536 < base.toNat + image.length) :
    s.serve (.loadImage image base) = (s, .refused ⟨image.length, base⟩) := by
  rw [serve, s.loadImage_of_lt h]

end LoadImage

/-- **The two ways agree.**  If a memory is attached at all addresses, alone, then a processor takes
an image just if it ends within the addresses, and the memory becomes what copying the image to the
same place makes of it; an image that does not end there is refused before anything is written.
Copying, to any offset of a memory of any size, puts every byte that fits into its place and leaves
all others alone, as writing them one by one would. -/
theorem image_loaders_agree {name : String} {ram : FlatMemory} {space : AddressSpace (Ram 65536)}
    {s : Cpu (AddressSpace (Ram 65536))}
    (hspace : AddressSpace.empty.attach ⟨name, 0x0000, 0xFFFF⟩ ram = .ok space)
    (hbus : s.bus = space) (image : List UInt8) (base : UInt16) :
    s.TakesImage name ram image base ∧
      ∀ (size : Nat) (memory : Ram size) (offset : UInt16) (bytes : List UInt8),
        memory.Receives offset.toNat bytes (memory.load offset.toNat bytes) := by
  have hroutes : s.bus = ⟨#[⟨AddressSpace.everywhere name, ram⟩]⟩ :=
    hbus.trans (Except.ok.inj hspace).symm
  refine ⟨⟨⟨?_, ?_⟩, ?_, ?_⟩, fun _ memory offset bytes =>
    memory.receives_load offset.toNat bytes⟩
  · rintro ⟨t, ht⟩
    by_contra hlarge
    rw [s.loadImage_of_lt (Nat.not_le.mp hlarge)] at ht
    cases ht
  · intro hfits
    exact ⟨_, s.loadImage_of_le hfits⟩
  · intro hfits
    refine ⟨⟨#[⟨AddressSpace.everywhere name, ram.load base.toNat image⟩]⟩, rfl, ?_⟩
    rw [s.loadImage_of_le hfits, hroutes, AddressSpace.writeFrom_everywhere,
      Bus.writeFrom_eq_load ram base image hfits]
  · intro hlarge
    refine ⟨s.serve_loadImage_of_lt hlarge, ?_⟩
    rw [s.recorded.serve_loadImage_of_lt hlarge]
    rfl

/-- At the last address a processor takes an image of one byte and refuses one of two, of which
copying would keep the first and leave the first address alone. -/
theorem image_loaders_agree_lastAddress :
    ∃ space, AddressSpace.empty.attach ⟨"ram", 0x0000, 0xFFFF⟩ countingMemory = .ok space ∧
      (∃ t, (reset space .fail).loadImage [0xEA] 0xFFFF = .ok t) ∧
      ((reset space .fail).serve (.loadImage [0xEA, 0xEA] 0xFFFF)).2 = .refused ⟨2, 0xFFFF⟩ ∧
      (countingMemory.load 0xFFFF [0xEA, 0xEA]).read 0xFFFF = 0xEA ∧
      (countingMemory.load 0xFFFF [0xEA, 0xEA]).read 0x0000 = countingMemory.read 0x0000 := by
  obtain ⟨space, hspace⟩ : ∃ space,
      AddressSpace.empty.attach ⟨"ram", 0x0000, 0xFFFF⟩ countingMemory = .ok space := ⟨_, rfl⟩
  have hbus : (reset space .fail).bus = space := rfl
  obtain ⟨hone, -⟩ := image_loaders_agree hspace hbus [0xEA] 0xFFFF
  obtain ⟨htwo, hcopies⟩ := image_loaders_agree hspace hbus [0xEA, 0xEA] 0xFFFF
  have hcopy := hcopies _ countingMemory 0xFFFF [0xEA, 0xEA]
  refine ⟨space, hspace, hone.accepted_iff.mpr (by decide), ?_, ?_, ?_⟩
  · rw [(htwo.refused (by decide)).1]
    rfl
  · exact hcopy.inside 0 (by decide) (by decide)
  · exact hcopy.outside 0 (.inl (by decide))

end Cpu

end ChipScore
