import ChipScore.Bus
import ChipScore.Log
import ChipScore.Text.Hex

/-!
# Address spaces

An address space is a bus made of regions.  A region is a window of addresses with a device
behind it, and the earliest attached region that covers an address answers there.  Addresses
that no region covers read as zero and ignore writes.
-/

namespace ChipScore

/-- A name and a range of addresses, both ends included. -/
structure Window where
  /-- The name of the region. -/
  name : String
  /-- The first address. -/
  first : UInt16
  /-- The last address. -/
  last : UInt16
  deriving DecidableEq, Inhabited

namespace Window

/-- Whether an address lies in a window. -/
def contains (w : Window) (address : UInt16) : Bool :=
  w.first ≤ address && address ≤ w.last

/-- Whether two windows share an address. -/
def overlaps (v w : Window) : Bool :=
  v.first ≤ w.last && w.first ≤ v.last

/-- A range of addresses as text. -/
def range (w : Window) : String :=
  Hex.address w.first ++ "-" ++ Hex.address w.last

end Window

/-- Why a region cannot be attached. -/
inductive AttachError
  /-- The last address comes before the first. -/
  | invertedRange (window : Window)
  deriving DecidableEq

/-- The text of an error. -/
def AttachError.message : AttachError → String
  | .invertedRange w => "region '" ++ w.name ++ "' has inverted range " ++ w.range

/-- What attaching a region reports. -/
inductive AttachEvent
  /-- An earlier region shares addresses with the new one and answers there. -/
  | shadowed (window earlier : Window)
  /-- The region is attached. -/
  | attached (window : Window)
  deriving DecidableEq

/-- The log record of an event. -/
def AttachEvent.record : AttachEvent → Log.Record
  | .shadowed w e =>
    ⟨.debug, "region '" ++ w.name ++ "' " ++ w.range ++ " overlaps '" ++ e.name ++ "' " ++ e.range
      ++ "; '" ++ e.name ++ "' takes precedence"⟩
  | .attached w => ⟨.debug, "attached region '" ++ w.name ++ "' at " ++ w.range⟩

/-- The events of attaching a window after others, in attachment order. -/
def AttachEvent.ofAttaching (earlier : List Window) (w : Window) : List AttachEvent :=
  (earlier.filter w.overlaps).map (.shadowed w) ++ [.attached w]

/-- A window with a device behind it. -/
structure AddressSpace.Region (δ : Type) where
  /-- Where the device answers. -/
  window : Window
  /-- What answers there. -/
  device : δ

/-- A bus made of regions, in attachment order. -/
structure AddressSpace (δ : Type) where
  /-- The regions; the position of a region is its handle. -/
  regions : Array (AddressSpace.Region δ)

namespace AddressSpace

variable {δ : Type}

/-- The address space without regions. -/
def empty : AddressSpace δ :=
  ⟨#[]⟩

/-- The windows of the regions, in attachment order. -/
def windows (space : AddressSpace δ) : List Window :=
  space.regions.toList.map Region.window

/-- Attaches a device, unless the range is inverted.  The handle of the new region is the number
of regions before it. -/
def attach (space : AddressSpace δ) (window : Window) (device : δ) :
    Except AttachError (AddressSpace δ) :=
  if window.last < window.first then
    .error (.invertedRange window)
  else
    .ok ⟨space.regions.push ⟨window, device⟩⟩

/-- What attaching a window reports; an inverted range reports nothing. -/
def attachEvents (space : AddressSpace δ) (window : Window) : List AttachEvent :=
  if window.last < window.first then [] else AttachEvent.ofAttaching space.windows window

/-- The device behind a handle. -/
def device? (space : AddressSpace δ) (handle : Nat) : Option δ :=
  space.regions[handle]?.map Region.device

/-- Changes the device behind a handle. -/
def modifyDevice (space : AddressSpace δ) (handle : Nat) (f : δ → δ) : AddressSpace δ :=
  ⟨space.regions.modify handle fun region => { region with device := f region.device }⟩

/-- The handle of the region that answers at an address. -/
def route (space : AddressSpace δ) (address : UInt16) : Option Nat :=
  space.regions.findIdx? fun region => region.window.contains address

variable [Device δ]

/-- The byte at an address. -/
def read (space : AddressSpace δ) (address : UInt16) : UInt8 :=
  match space.regions.find? fun region => region.window.contains address with
  | some region => Device.read region.device (address - region.window.first)
  | none => 0

/-- The address space after a byte is written at an address. -/
def write (space : AddressSpace δ) (address : UInt16) (value : UInt8) : AddressSpace δ :=
  match space.route address with
  | some handle =>
    ⟨space.regions.modify handle fun region =>
      { region with device := Device.write region.device (address - region.window.first) value }⟩
  | none => space

instance : Bus (AddressSpace δ) where
  read := read
  write := write

end AddressSpace

end ChipScore
