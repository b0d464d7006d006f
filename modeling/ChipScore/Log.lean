/-!
# Log records

What happens inside the machine is described by events, one inductive type for each part of the
library.  An event is turned into a record, which has a level and a text, only where somebody
asks for the log.
-/

namespace ChipScore.Log

/-- How severe a record is. -/
inductive Level
  | error
  | warn
  | info
  | debug
  | trace
  deriving DecidableEq, Inhabited

/-- The levels are numbered from the most to the least severe. -/
def Level.rank : Level → Nat
  | .error => 0
  | .warn => 1
  | .info => 2
  | .debug => 3
  | .trace => 4

/-- The name of a level in front of a record. -/
def Level.name : Level → String
  | .error => "ERROR"
  | .warn => "WARN"
  | .info => "INFO"
  | .debug => "DEBUG"
  | .trace => "TRACE"

/-- A log threshold lets through the records that are at least as severe. -/
def Level.admits (threshold level : Level) : Bool :=
  level.rank ≤ threshold.rank

/-- One line of a log. -/
structure Record where
  /-- The severity of the record. -/
  level : Level
  /-- The text of the record. -/
  message : String
  deriving DecidableEq, Inhabited

/-- The line that shows a record. -/
def Record.line (r : Record) : String :=
  r.level.name ++ " " ++ r.message

/-- The records of a log that a threshold lets through, in order. -/
def visible (threshold : Level) (records : List Record) : List Record :=
  records.filter fun r => threshold.admits r.level

end ChipScore.Log
