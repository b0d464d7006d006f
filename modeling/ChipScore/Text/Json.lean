/-!
# JSON text

A value of JSON and its text with two blanks for each level of nesting.  Numbers are given as
text, and strings hold no character that would need an escape.
-/

namespace ChipScore

/-- A value of JSON. -/
inductive Json
  /-- A number, `null`, or another literal, by its text. -/
  | literal (text : String)
  /-- A string of plain characters. -/
  | plain (text : String)
  /-- A list. -/
  | list (items : List Json)
  /-- An object, with its fields in order. -/
  | object (fields : List (String × Json))
  deriving Inhabited

namespace Json

/-- The start of a line at a level of nesting. -/
def newline (level : Nat) : String :=
  "\n" ++ String.ofList (List.replicate (2 * level) ' ')

/-- Items on lines of their own between brackets; no items leave nothing between them. -/
def block (level : Nat) (left right : String) (items : List String) : String :=
  if items.isEmpty then
    left ++ right
  else
    left ++ newline (level + 1) ++ ("," ++ newline (level + 1)).intercalate items
      ++ newline level ++ right

/-- A string in quotes. -/
def quoted (text : String) : String :=
  "\"" ++ text ++ "\""

mutual

/-- The text of a value at a level of nesting. -/
def text (level : Nat) : Json → String
  | literal text => text
  | plain text => quoted text
  | list items => block level "[" "]" (texts (level + 1) items)
  | object fields => block level "\x7b" "\x7d" (fieldTexts (level + 1) fields)

/-- The texts of values at a level of nesting. -/
def texts (level : Nat) : List Json → List String
  | [] => []
  | item :: rest => text level item :: texts level rest

/-- The texts of fields at a level of nesting. -/
def fieldTexts (level : Nat) : List (String × Json) → List String
  | [] => []
  | (name, value) :: rest =>
    (quoted name ++ ": " ++ text level value) :: fieldTexts level rest

end

end Json

end ChipScore
