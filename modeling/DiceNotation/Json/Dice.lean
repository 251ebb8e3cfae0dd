/-
The JSON forms of dice, outcomes and labeled lines. A die and an outcome
are variants, a labeled line is a record; numbers are integers in
the range of their words, and counts and sides are above zero.

Reading allows a fixed number of brackets to be open at once, counted
along the parts that are read for their meaning; a part that is passed
over may be nested as deeply as it likes. A joined die opens two
brackets for each of its levels, so dice nested deeper than that are
written but not read again.
-/
import DiceNotation.Json.Read
import DiceNotation.Json.Record
import DiceNotation.Json.Written
import DiceNotation.Outcome
import DiceNotation.Rolls

namespace DiceNotation

open Json

/-- How many brackets may be open at once. -/
def Json.maxDepth : Nat := 127

-- =============================================================== names

namespace Json.Key

/-- The variant of a single group. -/
def leaf : List Char := "Leaf".toList

/-- The variant of joined dice. -/
def combined : List Char := "Combined".toList

/-- The number of dice in a group. -/
def count : List Char := "ndice".toList

/-- The sides of the dice in a group. -/
def sides : List Char := "dsides".toList

/-- The bonus of a group. -/
def bonus : List Char := "bonus".toList

/-- The left side of a join. -/
def left : List Char := "left".toList

/-- The right side of a join. -/
def right : List Char := "right".toList

/-- The faces of a group, and the dice of a labeled line. -/
def rolls : List Char := "rolls".toList

/-- The total of an outcome. -/
def total : List Char := "total".toList

/-- The label of a labeled line. -/
def name : List Char := "name".toList

end Json.Key

-- ============================================================= writing

/-- A die in JSON. -/
def Die.toJson : Die → Value
  | .group g =>
      .object [(Key.leaf, .object [
        (Key.count, .ofInt g.count.toNat),
        (Key.sides, .ofInt g.sides.toNat),
        (Key.bonus, .ofInt g.bonus.toInt)])]
  | .join l r =>
      .object [(Key.combined, .object [
        (Key.left, l.toJson),
        (Key.right, r.toJson)])]

/-- An outcome in JSON. -/
def Outcome.toJson : Outcome → Value
  | .group faces b t =>
      .object [(Key.leaf, .object [
        (Key.rolls, .array (faces.map fun face => .ofInt face.toNat)),
        (Key.bonus, .ofInt b.toInt),
        (Key.total, .ofInt t.toInt)])]
  | .join l r t =>
      .object [(Key.combined, .object [
        (Key.left, l.toJson),
        (Key.right, r.toJson),
        (Key.total, .ofInt t.toInt)])]

/-- A labeled line in JSON. -/
def LabeledLine.toJson (labeled : LabeledLine) : Value :=
  let label :=
    match labeled.label with
    | none => .null
    | some text => .ofText text.toList
  .object [
    (Key.name, label),
    (Key.rolls, .array (labeled.dice.map Die.toJson))]

-- ============================================================= scalars

namespace Json.Value

/-- The integer that a value is. -/
def toInt? : Value → Option Int
  | .number literal => integer? literal
  | _ => none

/-- The unsigned 32-bit word that a value is. -/
def toWord? (value : Value) : Option UInt32 :=
  value.toInt?.bind Word.unsigned32?

/-- The positive word that a value is. -/
def toPositive? (value : Value) : Option Positive :=
  value.toWord?.bind Positive.ofWord?

/-- The signed 32-bit word that a value is. -/
def toBonus? (value : Value) : Option Int32 :=
  value.toInt?.bind Word.signed32?

/-- The signed 64-bit word that a value is. -/
def toTotal? (value : Value) : Option Int64 :=
  value.toInt?.bind Word.signed64?

/-- The label that a value is: a text, or none for null. -/
def toLabel? : Value → Option (Option String)
  | .null => some none
  | .string source =>
      (unescape? source).map fun text => some (String.ofList text)
  | _ => none

end Json.Value

-- ============================================================= reading

/-- The group that the content of its variant is. -/
def Group.ofJson? (content : Value) : Option Group :=
  match content.fields? [Key.count, Key.sides, Key.bonus] with
  | some [some c, some s, some b] => do
      return ⟨← c.toPositive?, ← s.toPositive?, ← b.toBonus?⟩
  | _ => none

/-- The die that a value is, with so many brackets left to open. -/
def Die.ofJson? : Nat → Value → Option Die
  | depth + 2, value =>
      match value.variant? with
      | none => none
      | some (variant, content) =>
          if variant = Key.leaf then (Group.ofJson? content).map .group
          else if variant = Key.combined then
            match content.fields? [Key.left, Key.right] with
            | some [some l, some r] => do
                return .join (← ofJson? depth l) (← ofJson? depth r)
            | _ => none
          else none
  | _, _ => none

/-- The outcome that a value is, with so many brackets left to open. -/
def Outcome.ofJson? : Nat → Value → Option Outcome
  | depth + 2, value =>
      match value.variant? with
      | none => none
      | some (variant, content) =>
          if variant = Key.leaf then
            match depth, content.fields? [Key.rolls, Key.bonus, Key.total] with
            | _ + 1, some [some (.array fs), some b, some t] => do
                return .group (← fs.mapM Value.toWord?) (← b.toBonus?)
                  (← t.toTotal?)
            | _, _ => none
          else if variant = Key.combined then
            match content.fields? [Key.left, Key.right, Key.total] with
            | some [some l, some r, some t] => do
                return .join (← ofJson? depth l) (← ofJson? depth r)
                  (← t.toTotal?)
            | _ => none
          else none
  | _, _ => none

/-- The labeled line that a value is, with so many brackets left to
open. An object without a label means no label. -/
def LabeledLine.ofJson? : Nat → Value → Option LabeledLine
  | depth + 2, value =>
      match value.fields? [Key.name, Key.rolls] with
      | some [label, some (.array dice)] => do
          let label ← match label with
            | none => some none
            | some label => label.toLabel?
          return ⟨label, ← dice.mapM (Die.ofJson? depth)⟩
      | _ => none
  | _, _ => none

-- ======================================================== whole texts

/-- A die as JSON text. -/
def Die.json (die : Die) : String := String.ofList die.toJson.written

/-- An outcome as JSON text. -/
def Outcome.json (outcome : Outcome) : String :=
  String.ofList outcome.toJson.written

/-- A labeled line as JSON text. -/
def LabeledLine.json (labeled : LabeledLine) : String :=
  String.ofList labeled.toJson.written

/-- The die that a JSON text is. -/
def Die.readJson? (text : String) : Option Die :=
  (Value.ofText? text.toList).bind (Die.ofJson? maxDepth)

/-- The outcome that a JSON text is. -/
def Outcome.readJson? (text : String) : Option Outcome :=
  (Value.ofText? text.toList).bind (Outcome.ofJson? maxDepth)

/-- The labeled line that a JSON text is. -/
def LabeledLine.readJson? (text : String) : Option LabeledLine :=
  (Value.ofText? text.toList).bind (LabeledLine.ofJson? maxDepth)

end DiceNotation
