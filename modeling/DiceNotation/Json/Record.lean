/-
Records in JSON. A record with named fields is an object whose members
carry the names, in any order, or an array of the fields in the order of
the names. In an object, members of other names do not count, and a name
that comes twice spoils the record; in an array, so does a field too
many or too few.

A variant is an object of one member, whose name tells which variant it
is and whose value is its content.
-/
import DiceNotation.Json.Value

namespace DiceNotation.Json

/-- The members of an object under the names that their keys mean. -/
def named? : List (List Char × Value) → Option (List (List Char × Value))
  | [] => some []
  | (key, value) :: members =>
      match unescape? key, named? members with
      | some name, some rest => some ((name, value) :: rest)
      | _, _ => none

/-- The fields of a record, in the order of their names; a field that an
object does not have is missing. -/
def Value.fields? (names : List (List Char)) :
    Value → Option (List (Option Value))
  | .array items =>
      if items.length = names.length then some (items.map some) else none
  | .object members =>
      match named? members with
      | none => none
      | some named =>
          if names.all fun name =>
              (named.filter (·.1 == name)).length ≤ 1 then
            some (names.map fun name => named.lookup name)
          else none
  | _ => none

/-- The name and the content of a variant. -/
def Value.variant? : Value → Option (List Char × Value)
  | .object [(key, content)] => (unescape? key).map (·, content)
  | _ => none

end DiceNotation.Json
