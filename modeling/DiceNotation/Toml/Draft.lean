/-
Drafts: the values of TOML as they are written, before it is asked what
they mean. A draft may have a date that does not exist or a key that
comes twice; whether it has is settled when its value is taken, and not
before, so a draft whose value is never taken may be as wrong as it
likes.

Entries are added to a draft of a table one by one. Their keys may be
dotted: the path of a dotted key leads through tables that such keys
alone have opened. A plain entry is added whatever is there already.
-/
import DiceNotation.Toml.Datetime
import DiceNotation.Toml.Value

namespace DiceNotation.Toml

-- ============================================================ the type

/-- A value of TOML, as it is written. -/
inductive Draft where
  /-- A value that means what it says. -/
  | scalar (value : Value)
  | datetime (literal : List Char)
  | array (items : List Draft)
  /-- A table, and whether dotted keys have opened it; into such a table
  alone more of them may lead. -/
  | table (dotted : Bool) (entries : List (Key × Draft))

-- ========================================================= dotted keys

/-- A draft behind a path of keys. -/
def Draft.behind : List Key → Draft → Draft
  | [], content => content
  | key :: path, content => .table true [(key, behind path content)]

mutual

/-- Adds a draft behind a path of keys to what a key has already. -/
def Draft.add (path : List Key) (content : Draft) :
    Draft → Option Draft
  | .table true entries =>
      (addEntry path content entries).map (.table true ·)
  | _ => none

/-- Adds a draft behind a path of keys to the entries of a table. A path
of one key adds an entry; a longer one goes on from the first entry of
its first key. -/
def addEntry (path : List Key) (content : Draft) :
    List (Key × Draft) → Option (List (Key × Draft))
  | [] =>
      match path with
      | [] => none
      | key :: path => some [(key, content.behind path)]
  | (name, draft) :: entries =>
      match path with
      | [] => none
      | [key] => some ((name, draft) :: entries ++ [(key, content)])
      | key :: next :: rest =>
          if name = key then
            (Draft.add (next :: rest) content draft).map
              fun draft => (name, draft) :: entries
          else
            (addEntry path content entries).map ((name, draft) :: ·)

end

-- =============================================================== dates

/-- A date, if the text of one is well-formed. -/
def Value.ofDate? (text : List Char) : Option Value :=
  if Datetime.isValid text then some (.datetime text) else none

/-- What entries have under the key of dates, if they start with it. -/
def dateUnder? : List (Key × Draft) → Option Draft
  | [] => none
  | (key, draft) :: _ => if key = dateKey then some draft else none

/-- The date that a draft under the key of dates gives: it has to be a
string. -/
def Draft.date? : Draft → Option Value
  | .scalar (.string text) => Value.ofDate? text
  | _ => none

-- ============================================================== values

mutual

/-- The value that a draft means, if it means one. A table that starts
with the key of dates is a date, whatever stands behind it. -/
def Draft.value? : Draft → Option Value
  | .scalar value => some value
  | .datetime literal => Value.ofDate? literal
  | .array items => (valuesOf? items).map .array
  | .table _ entries =>
      match dateUnder? entries with
      | some draft => draft.date?
      | none => (entryValues? entries).bind Value.ofEntries?

/-- The values that drafts mean. -/
def valuesOf? : List Draft → Option (List Value)
  | [] => some []
  | item :: items =>
      match item.value?, valuesOf? items with
      | some value, some values => some (value :: values)
      | _, _ => none

/-- The entries of a table, with the values that they mean. -/
def entryValues? :
    List (Key × Draft) → Option (List (Key × Value))
  | [] => some []
  | (key, draft) :: entries =>
      match draft.value?, entryValues? entries with
      | some value, some values => some ((key, value) :: values)
      | _, _ => none

end

end DiceNotation.Toml
