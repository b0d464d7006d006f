import ChipScore.Word

/-!
# Buses

A bus answers a read at every address and absorbs a write at every address; reading changes
nothing.  A `Device` is the same thing seen from inside an address window: it is asked for an
offset.  `Bus.Recorded` wraps a bus and keeps, in order, the writes that reach it.
-/

namespace ChipScore

/-- What a processor reads and writes. -/
class Bus (β : Type) where
  /-- The byte at an address. -/
  read : β → UInt16 → UInt8
  /-- The bus after a byte is written at an address. -/
  write : β → UInt16 → UInt8 → β

/-- What answers inside a window of addresses. -/
class Device (δ : Type) where
  /-- The byte at an offset into the window. -/
  read : δ → UInt16 → UInt8
  /-- The device after a byte is written at an offset into the window. -/
  write : δ → UInt16 → UInt8 → δ

namespace Bus

variable {β : Type} [Bus β]

/-- The little-endian word at an address; the second byte's address wraps. -/
def readWord (bus : β) (address : UInt16) : UInt16 :=
  Word.ofBytes (read bus address) (read bus (address + 1))

/-- Writes bytes at consecutive addresses, wrapping after the last one. -/
def writeFrom (bus : β) (address : UInt16) : List UInt8 → β
  | [] => bus
  | value :: rest => writeFrom (write bus address value) (address + 1) rest

/-- The bytes at consecutive addresses, wrapping after the last one. -/
def readFrom (bus : β) (address : UInt16) : Nat → List UInt8
  | 0 => []
  | n + 1 => read bus address :: readFrom bus (address + 1) n

/-- One write on a bus. -/
structure Access where
  /-- Where the byte is written. -/
  address : UInt16
  /-- The byte that is written. -/
  value : UInt8
  deriving DecidableEq, Inhabited

/-- A bus together with the writes that reached it, oldest first. -/
structure Recorded (β : Type) where
  /-- The writes, oldest first. -/
  writes : Array Access
  /-- The bus behind the recorder. -/
  bus : β

/-- Reads go through, writes go through and are kept. -/
instance : Bus (Recorded β) where
  read r address := read r.bus address
  write r address value := ⟨r.writes.push ⟨address, value⟩, write r.bus address value⟩

end Bus

end ChipScore
