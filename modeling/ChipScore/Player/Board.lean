import ChipScore.Bus.AddressSpace
import ChipScore.Bus.Ram
import ChipScore.Sound.VoiceBank

/-!
# The machine's board

The bus of the machine: memory at every address, with the chip's window in front of it.  Memory
under the window keeps its bytes and cannot be reached by the processor.
-/

namespace ChipScore

/-- The chip and the memory. -/
structure Board where
  /-- The sound chip. -/
  chip : VoiceBank
  /-- The memory. -/
  ram : FlatMemory

namespace Board

/-- The window of the chip. -/
def chipWindow : Window :=
  ⟨"sid", 0xD400, 0xD7FF⟩

/-- The window of the memory. -/
def ramWindow : Window :=
  ⟨"ram", 0x0000, 0xFFFF⟩

/-- The windows, the one that answers first in front. -/
def windows : List Window :=
  [chipWindow, ramWindow]

/-- What assembling the board reports. -/
def attachEvents : List AttachEvent :=
  AttachEvent.ofAttaching [] chipWindow ++ AttachEvent.ofAttaching [chipWindow] ramWindow

/-- A board with a silent chip and an image in its memory, part of which may lie under the chip's
window. -/
def withImage (clockHz : Binary64) (base : UInt16) (image : List UInt8) : Board where
  chip := .new clockHz
  ram := (Ram.zero 65536).load base.toNat image

instance : Bus Board where
  read board address :=
    if chipWindow.contains address then
      Device.read board.chip (address - chipWindow.first)
    else
      Bus.read board.ram address
  write board address value :=
    if chipWindow.contains address then
      { board with chip := Device.write board.chip (address - chipWindow.first) value }
    else
      { board with ram := Bus.write board.ram address value }

end Board

end ChipScore
