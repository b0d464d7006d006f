/-!
# Bytes and words

A word of the machine is sixteen bits wide and is stored low byte first.  This module splits a
word into its two bytes and its page, joins two bytes into a word, and extends a signed byte to
a word.
-/

namespace ChipScore.Word

/-- The word whose low and high bytes are given. -/
def ofBytes (low high : UInt8) : UInt16 :=
  high.toUInt16 <<< 8 ||| low.toUInt16

/-- The low byte of a word. -/
def low (w : UInt16) : UInt8 :=
  w.toUInt8

/-- The high byte of a word. -/
def high (w : UInt16) : UInt8 :=
  (w >>> 8).toUInt8

/-- Two addresses lie on one page when their high bytes agree. -/
def samePage (v w : UInt16) : Bool :=
  high v == high w

/-- The word that has the value of a byte read as a signed number, modulo `2 ^ 16`. -/
def ofSigned (offset : UInt8) : UInt16 :=
  offset.toInt8.toInt16.toUInt16

end ChipScore.Word
