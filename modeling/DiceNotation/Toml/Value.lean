/-
Values of TOML, as they are meant. A table keeps its entries in their
order, and every key of it comes once. It never starts with the key of
dates: a table that is written so is a date and no table.
-/
import DiceNotation.Toml.Number

namespace DiceNotation.Toml

/-- A key, as the text it means. -/
abbrev Key := List Char

-- ============================================================ the type

/-- A value of TOML. Dates are kept as they are written. -/
inductive Value where
  | integer (value : Int64)
  | boolean (value : Bool)
  | float (value : Number.FloatLiteral)
  | string (text : List Char)
  | datetime (literal : List Char)
  | array (items : List Value)
  | table (entries : List (Key × Value))

/-- The last value under a key. -/
def lastUnder (key : Key) (entries : List (Key × Value)) :
    Option Value :=
  entries.reverse.lookup key

-- ============================================================== tables

/-- The key that a date has where it is written as a table. -/
def dateKey : Key := "$__toml_private_datetime".toList

/-- Whether every key comes once. -/
def keysDiffer : List Key → Bool
  | [] => true
  | key :: keys => !keys.contains key && keysDiffer keys

/-- Entries as a table, if every key comes once and the first one is not
the key of dates. -/
def Value.ofEntries? (entries : List (Key × Value)) : Option Value :=
  let keys := entries.map Prod.fst
  if keysDiffer keys && keys.head? != some dateKey then
    some (.table entries)
  else none

end DiceNotation.Toml
