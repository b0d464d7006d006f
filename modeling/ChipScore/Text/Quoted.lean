import ChipScore.Text.Hex

/-!
# Quoted text

Text of unknown origin is shown in double quotes.  Quotes and backslashes are escaped, and so is
every character below `U+0100` that has no visible form of its own.
-/

namespace ChipScore.Quoted

/-- Whether a character below `U+0100` cannot be seen: the controls, the no-break space and the
soft hyphen. -/
def isInvisible (c : Char) : Bool :=
  c.toNat < 0x20 || (0x7F ≤ c.toNat && c.toNat ≤ 0xA0) || c.toNat == 0xAD

/-- The escape of a character by its number. -/
def numbered (c : Char) : List Char :=
  "\\u\x7b".toList ++ Nat.toDigits 16 c.toNat ++ "\x7d".toList

/-- A character as it stands between quotes. -/
def escape (c : Char) : List Char :=
  if c = '"' then ['\\', '"']
  else if c = '\\' then ['\\', '\\']
  else if c = Char.ofNat 0 then ['\\', '0']
  else if c = '\t' then ['\\', 't']
  else if c = '\n' then ['\\', 'n']
  else if c = '\r' then ['\\', 'r']
  else if isInvisible c then numbered c
  else [c]

/-- A text in quotes. -/
def quote (text : List Char) : String :=
  String.ofList ('"' :: text.flatMap escape ++ ['"'])

end ChipScore.Quoted
