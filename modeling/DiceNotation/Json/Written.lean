/-
JSON values as text. Writing is compact: no blank stands between tokens,
and the members of an object come in their order. Texts are built in
front of a rest.
-/
import DiceNotation.Json.Value

namespace DiceNotation.Json

/-- A string between its quotes, in front of a further text. -/
def stringOnto (source rest : List Char) : List Char :=
  '"' :: (source ++ '"' :: rest)

mutual

/-- A value in front of a further text. -/
def Value.writtenOnto : Value → List Char → List Char
  | .null, rest => ['n', 'u', 'l', 'l'] ++ rest
  | .bool true, rest => ['t', 'r', 'u', 'e'] ++ rest
  | .bool false, rest => ['f', 'a', 'l', 's', 'e'] ++ rest
  | .number literal, rest => literal ++ rest
  | .string source, rest => stringOnto source rest
  | .array items, rest => '[' :: itemsOnto items (']' :: rest)
  | .object members, rest =>
      '\x7b' :: membersOnto members ('\x7d' :: rest)

/-- Items with commas between them, in front of a further text. -/
def itemsOnto : List Value → List Char → List Char
  | [], rest => rest
  | [item], rest => item.writtenOnto rest
  | item :: items, rest => item.writtenOnto (',' :: itemsOnto items rest)

/-- Members with commas between them, in front of a further text. -/
def membersOnto : List (List Char × Value) → List Char → List Char
  | [], rest => rest
  | [(key, value)], rest =>
      stringOnto key (':' :: value.writtenOnto rest)
  | (key, value) :: members, rest =>
      stringOnto key
        (':' :: value.writtenOnto (',' :: membersOnto members rest))

end

/-- A value as text. -/
def Value.written (value : Value) : List Char := value.writtenOnto []

end DiceNotation.Json
