/-
A walk through a text: one cursor on which one thing is done after
another, with marks to come back to. The state of a walk is the cursor
and the marks set so far; a mark is nothing but the cursor as it was when
the mark was set.

Each step answers with what it found, and the cursor stays where the step
has left it, also when the step found nothing: a walk by itself takes
nothing back.
-/
import DiceNotation.Cursor.Rules

namespace DiceNotation

/-- What can be done on a walk. -/
inductive Walk.Step where
  /-- Read an unsigned number. -/
  | unsigned
  /-- Read a number with an optional sign. -/
  | signed
  /-- Read an expected text, in either case. -/
  | literal (expected : List Char)
  /-- Pass over blanks. -/
  | skip
  /-- Pass over blanks and ask whether anything is left. -/
  | exhausted
  /-- Set a mark. -/
  | mark
  /-- Go back to a mark. -/
  | restore (index : Nat)
  /-- Ask whether the text left is that at a mark. -/
  | atMark (index : Nat)
  /-- Read a repeat count, or none as one. -/
  | repeatCount
  /-- Read a roll list. -/
  | rollList
  /-- Read a roll. -/
  | roll
  /-- Read a die. -/
  | die
  /-- Read a group. -/
  | group
  /-- Read the rest of a die behind one already read. -/
  | dieAfter (first : Die)

/-- What a step found. -/
inductive Walk.Answer where
  /-- Nothing of what was looked for. -/
  | missing
  /-- Nothing was looked for. -/
  | done
  | number (value : Int)
  | truth (holds : Bool)
  | marked (index : Nat)
  | die (found : Die)
  | dice (found : List Die)

/-- A text being walked through. -/
structure Walk extends Cursor where
  /-- The cursor at each mark, in the order of the marks. -/
  marks : List Cursor

namespace Walk

/-- A walk at the start of a text. -/
def ofText (text : List Char) : Walk := ⟨⟨text⟩, []⟩

/-- Does something with the cursor and answers with what it gives. -/
def act {α : Type} (walk : Walk) (action : Cursor.Action α)
    (answer : α → Answer) : Answer × Walk :=
  let (found, cursor) := action.run walk.toCursor
  (answer found, { walk with toCursor := cursor })

/-- Does with the cursor what may fail, and answers with what it found if
it has not. -/
def ask {α : Type} (walk : Walk) (rule : Cursor.Rule α)
    (answer : α → Answer) : Answer × Walk :=
  walk.act rule.optional fun found => found.elim .missing answer

/-- Takes one step. -/
def step (walk : Walk) : Step → Answer × Walk
  | .unsigned => walk.ask Cursor.readUnsigned fun n => .number n.toNat
  | .signed => walk.ask Cursor.readSigned .number
  | .literal expected => walk.act (Cursor.consumeLiteral expected) .truth
  | .skip => walk.act Cursor.skipBlank fun () => .done
  | .exhausted => walk.act Cursor.isExhausted .truth
  | .mark =>
      let (mark, cursor) := Cursor.checkpoint.run walk.toCursor
      (.marked walk.marks.length, ⟨cursor, walk.marks ++ [mark]⟩)
  | .restore index =>
      match walk.marks[index]? with
      | some mark => walk.act (Cursor.restore mark) fun () => .done
      | none => (.done, walk)
  | .atMark index =>
      (.truth (walk.marks[index]? == some walk.toCursor), walk)
  | .repeatCount =>
      walk.ask Cursor.readRepeatCount fun n => .number n.toNat
  | .rollList => walk.ask Cursor.readRollList .dice
  | .roll => walk.ask Cursor.readRoll .dice
  | .die => walk.ask Cursor.readDie .die
  | .group => walk.ask Cursor.readGroup fun g => .die (.group g)
  | .dieAfter first => walk.ask (Cursor.readDieAfter first) .die

end Walk

end DiceNotation
