/-
Whole texts as rolls. A text is read to its end or rejected; blanks at
the end do not count. A rejection carries the text it was given and the
place where reading stopped: the beginning if the first rule failed,
else what the rule left.

A labeled line is a label and rolls around an equals sign, the last one
in the line; without one the whole line is rolls. Its rejection speaks
of the rolls alone.
-/
import DiceNotation.Cursor.Rules
import DiceNotation.Record
import DiceNotation.Text.Quoted

namespace DiceNotation

-- =========================================================== rejection

/-- A text that is not dice notation. -/
structure Rejection where
  /-- The text, as it was given. -/
  input : String
  /-- What was left of it where reading stopped. -/
  rest : String
deriving DecidableEq, Repr

namespace Rejection

/-- The sentence that tells of a rejection. -/
def message (rejection : Rejection) : String :=
  "invalid dice expression: " ++ Text.quoteString rejection.input

/-- The record of a rejection. -/
def record (rejection : Rejection) : Record :=
  ⟨.debug, "rejected " ++ Text.quoteString rejection.input
    ++ ", stopped at " ++ Text.quoteString rejection.rest⟩

/-- The rejection of a text where the cursor has stopped. -/
def ofCursor (input : String) (cursor : Cursor) : Rejection :=
  ⟨input, String.ofList cursor.rest⟩

end Rejection

-- =========================================================== one die

namespace Die

/-- Reads a text as one die. -/
def parse (input : String) : Except Rejection Die :=
  match Cursor.readDie.run ⟨input.toList⟩ with
  | (none, cursor) => .error (.ofCursor input cursor)
  | (some die, cursor) =>
      if (Text.trim cursor.rest).isEmpty then .ok die
      else .error (.ofCursor input cursor)

/-- Reading a text as one die goes by the rule for dice. -/
theorem parse_eq (input : String) :
    parse input
      = match Grammar.die input.toList with
        | none => .error ⟨input, input⟩
        | some (die, rest) =>
            if (Text.trim rest).isEmpty then .ok die
            else .error ⟨input, String.ofList rest⟩ := by
  unfold parse
  rw [Cursor.readDie_follows]
  cases Grammar.die input.toList with
  | none =>
      simp only [Cursor.leave, Rejection.ofCursor, String.ofList_toList]
  | some found => rfl

end Die

-- =============================================================== rolls

namespace Rolls

/-- Reads a text as a roll list. -/
def parse (input : String) : Except Rejection (List Die) :=
  match Cursor.readRollList.run ⟨input.toList⟩ with
  | (none, cursor) => .error (.ofCursor input cursor)
  | (some dice, cursor) =>
      match Cursor.isExhausted.run cursor with
      | (true, _) => .ok dice
      | (false, cursor) => .error (.ofCursor input cursor)

/-- Reading a text as a roll list goes by the rule for roll lists. -/
theorem parse_eq (input : String) :
    parse input
      = match Grammar.rollList input.toList with
        | none => .error ⟨input, input⟩
        | some (dice, rest) =>
            let rest := Text.skipBlank rest
            if rest.isEmpty then .ok dice
            else .error ⟨input, String.ofList rest⟩ := by
  unfold parse
  rw [Cursor.readRollList_follows]
  cases Grammar.rollList input.toList with
  | none =>
      simp only [Cursor.leave, Rejection.ofCursor, String.ofList_toList]
  | some found =>
      have hrun : Cursor.isExhausted.run ⟨found.2⟩
          = ((Text.skipBlank found.2).isEmpty,
            ⟨Text.skipBlank found.2⟩) := rfl
      simp only [Cursor.leave, hrun]
      cases (Text.skipBlank found.2).isEmpty with
      | true => rfl
      | false => rfl

/-- The record of reading a text as a roll list. -/
def record (input : String) : Except Rejection (List Die) → Record
  | .error rejection => rejection.record
  | .ok dice =>
      ⟨.debug, "parsed " ++ Text.quoteString input ++ " into "
        ++ String.ofList (Decimal.ofNat dice.length) ++ " rolls"⟩

end Rolls

-- ======================================================= labeled lines

/-- The parts of a text before and after the last of a character. -/
def splitAtLast (mark : Char) (text : List Char) :
    Option (List Char × List Char) :=
  match text.reverse.dropWhile (· != mark) with
  | [] => none
  | _ :: before =>
      some (before.reverse, (text.reverse.takeWhile (· != mark)).reverse)

/-- The dice of a line, and its label if it has one. -/
structure LabeledLine where
  label : Option String
  dice : List Die
deriving DecidableEq

namespace LabeledLine

/-- The label of a line, trimmed, and the text of its rolls. -/
def split (line : String) : Option String × String :=
  match splitAtLast '=' line.toList with
  | none => (none, line)
  | some (label, rolls) =>
      (some (String.ofList (Text.trim label)), String.ofList rolls)

/-- Reads a line. -/
def parse (line : String) : Except Rejection LabeledLine :=
  let (label, rolls) := split line
  match Rolls.parse rolls with
  | .error rejection => .error rejection
  | .ok dice => .ok ⟨label, dice⟩

/-- The record of reading a line. -/
def record (line : String) : Record :=
  let rolls := (split line).2
  Rolls.record rolls (Rolls.parse rolls)

end LabeledLine

end DiceNotation
