/-!
# Bytes as text

The content of a file or of a stream is a sequence of bytes, and is shown as the text that they
encode.  Not every sequence encodes a text, but every one can be shown: where the bytes cannot go
on as a character, those read so far for it are shown as one replacement character, and the byte
at which it broke off is read anew.

A `Decoder` takes in one byte after the other, and a `Partial` is the character that it is in the
middle of.
-/

namespace ChipScore.Utf8

/-- A character of which some bytes are still to come. -/
structure Partial where
  /-- The bytes still to come. -/
  missing : Nat
  /-- The least value of the next byte. -/
  low : UInt8
  /-- The greatest value of the next byte. -/
  high : UInt8
  /-- The number that the bytes so far make up. -/
  value : Nat
  deriving DecidableEq

/-- The character that begins with a byte.  What the second byte may be leaves out the overlong
forms, the surrogates and everything beyond the last character. -/
def Partial.ofFirst? (byte : UInt8) : Option Partial :=
  let value := byte.toNat
  if byte < 0xC2 then none
  else if byte < 0xE0 then some ⟨1, 0x80, 0xBF, value - 0xC0⟩
  else if byte = 0xE0 then some ⟨2, 0xA0, 0xBF, 0⟩
  else if byte = 0xED then some ⟨2, 0x80, 0x9F, value - 0xE0⟩
  else if byte < 0xF0 then some ⟨2, 0x80, 0xBF, value - 0xE0⟩
  else if byte = 0xF0 then some ⟨3, 0x90, 0xBF, 0⟩
  else if byte < 0xF4 then some ⟨3, 0x80, 0xBF, value - 0xF0⟩
  else if byte = 0xF4 then some ⟨3, 0x80, 0x8F, value - 0xF0⟩
  else none

/-- The character after another byte. -/
def Partial.extend (char : Partial) (byte : UInt8) : Partial :=
  ⟨char.missing - 1, 0x80, 0xBF, 64 * char.value + (byte.toNat - 0x80)⟩

/-- The character that stands for bytes that encode nothing. -/
def replacement : Char :=
  '\uFFFD'

/-- The state of decoding. -/
structure Decoder where
  /-- The text of the bytes so far. -/
  text : String
  /-- The character that is not complete. -/
  pending : Option Partial
  deriving DecidableEq

namespace Decoder

/-- Takes in a byte with which a character begins. -/
def first (text : String) (byte : UInt8) : Decoder :=
  if byte < 0x80 then
    ⟨text.push (Char.ofNat byte.toNat), none⟩
  else
    match Partial.ofFirst? byte with
    | some char => ⟨text, some char⟩
    | none => ⟨text.push replacement, none⟩

/-- Takes in a byte. -/
def feed (decoder : Decoder) (byte : UInt8) : Decoder :=
  match decoder.pending with
  | none => first decoder.text byte
  | some char =>
    if char.low ≤ byte ∧ byte ≤ char.high then
      let next := char.extend byte
      if next.missing = 0 then
        ⟨decoder.text.push (Char.ofNat next.value), none⟩
      else
        ⟨decoder.text, some next⟩
    else
      first (decoder.text.push replacement) byte

/-- The text when no more bytes come. -/
def finish (decoder : Decoder) : String :=
  match decoder.pending with
  | none => decoder.text
  | some _ => decoder.text.push replacement

end Decoder

/-- The text that bytes are shown as. -/
def decode (bytes : List UInt8) : String :=
  (bytes.foldl Decoder.feed ⟨"", none⟩).finish

end ChipScore.Utf8
