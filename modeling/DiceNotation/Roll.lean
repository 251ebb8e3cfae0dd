/-
Rolling. A die is rolled group by group from left to right, each group
with fresh words of one source, and the source is passed on from roll to
roll; nothing else ties one roll to the next. A text is rolled only if
all of it can be read: a rejected text takes no word.
-/
import DiceNotation.Die.Notation
import DiceNotation.Outcome.Written
import DiceNotation.Random.Face
import DiceNotation.Record
import DiceNotation.Rolls

namespace DiceNotation

variable {σ : Type} [WordSource σ]

-- ============================================================= rolling

/-- Rolls a group. -/
def Group.roll (g : Group) (source : σ) : Outcome × σ :=
  let (faces, source) := Face.drawMany g.sides g.count.toNat source
  (.ofFaces faces g.bonus, source)

/-- Rolls a die, the left side first. -/
def Die.roll : Die → σ → Outcome × σ
  | .group g, source => g.roll source
  | .join left right, source =>
      let (leftOutcome, source) := left.roll source
      let (rightOutcome, source) := right.roll source
      (.ofSides leftOutcome rightOutcome, source)

namespace Rolls

/-- Rolls dice in order, behind outcomes already rolled, which stand in
reverse. -/
def rollOnto : List Die → σ → List Outcome → List Outcome × σ
  | [], source, rolled => (rolled.reverse, source)
  | die :: dice, source, rolled =>
      let (outcome, source) := die.roll source
      rollOnto dice source (outcome :: rolled)

/-- Rolls dice in order. -/
def roll (dice : List Die) (source : σ) : List Outcome × σ :=
  rollOnto dice source []

/-- Reads a text and rolls its dice. -/
def rollText (input : String) (source : σ) :
    Except Rejection (List Outcome) × σ :=
  match parse input with
  | .error rejection => (.error rejection, source)
  | .ok dice =>
      let (outcomes, source) := roll dice source
      (.ok outcomes, source)

end Rolls

-- ============================================================= records

/-- The record of one roll. -/
def Outcome.record (die : Die) (outcome : Outcome) : Record :=
  ⟨.debug, "Dice roll result for " ++ die.toString ++ " is "
    ++ outcome.detail⟩

/-- The records of rolling a die: those of its sides stand before its
own. -/
def Outcome.records : Die → Outcome → List Record
  | .join left right, .join leftOutcome rightOutcome total =>
      records left leftOutcome ++ records right rightOutcome
        ++ [record (.join left right) (.join leftOutcome rightOutcome total)]
  | die, outcome => [record die outcome]

/-- The records of rolling dice in order. -/
def Rolls.rollRecords (dice : List Die) (outcomes : List Outcome) :
    List Record :=
  (dice.zip outcomes).flatMap fun (die, outcome) =>
    outcome.records die

end DiceNotation
