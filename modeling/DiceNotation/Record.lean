/-
Records of what the library did, for a log. A record is a level and a
text. Nothing that is rolled, shown or rejected depends on records: they
are computed from the values that the work produced, so the work itself
keeps no log.
-/

namespace DiceNotation

namespace Record

/-- How much a record matters, from the least to the most. -/
inductive Level
  | debug
  | info
  | warn
  | error
deriving DecidableEq, Repr

/-- The name of a level. -/
def Level.name : Level → String
  | .debug => "DEBUG"
  | .info => "INFO"
  | .warn => "WARN"
  | .error => "ERROR"

end Record

/-- A line of a log. -/
structure Record where
  level : Record.Level
  text : String
deriving DecidableEq, Repr

namespace Record

/-- A record on one line, its level first. -/
def line (record : Record) : String :=
  record.level.name ++ " " ++ record.text

/-- An error as a program shows it: its level, the name of the program
and the message. -/
def diagnostic (program message : String) : String :=
  " " ++ Level.error.name ++ " " ++ program ++ " > " ++ message

end Record

end DiceNotation
