import ChipScore.Bus

/-!
# Random access memory

`Ram size` is a device of `size` bytes.  Past its end it reads as zero and ignores writes.  With
`2 ^ 16` bytes it covers every address and is a bus of its own, the `FlatMemory`.
-/

namespace ChipScore

/-- A memory of a fixed number of bytes. -/
structure Ram (size : Nat) where
  /-- The bytes, by offset. -/
  cells : Vector UInt8 size

namespace Ram

variable {size : Nat}

/-- A memory that is zero everywhere. -/
def zero (size : Nat) : Ram size :=
  ⟨Vector.replicate size 0⟩

/-- The byte at an offset, zero past the end. -/
def read (ram : Ram size) (offset : Nat) : UInt8 :=
  if h : offset < size then ram.cells.get ⟨offset, h⟩ else 0

/-- The memory after a byte is written at an offset; a write past the end is lost. -/
def write (ram : Ram size) (offset : Nat) (value : UInt8) : Ram size :=
  if h : offset < size then ⟨ram.cells.set offset value h⟩ else ram

/-- Copies bytes to an offset; those that would lie past the end are lost. -/
def load (ram : Ram size) (offset : Nat) : List UInt8 → Ram size
  | [] => ram
  | value :: rest => if offset < size then load (ram.write offset value) (offset + 1) rest else ram

instance : Device (Ram size) where
  read ram offset := ram.read offset.toNat
  write ram offset value := ram.write offset.toNat value

end Ram

/-- The memory that covers every address. -/
abbrev FlatMemory : Type :=
  Ram 65536

instance : Bus FlatMemory where
  read ram address := ram.read address.toNat
  write ram address value := ram.write address.toNat value

end ChipScore
