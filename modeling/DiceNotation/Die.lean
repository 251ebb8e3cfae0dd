/-
Dice. A group is a number of equal dice with a bonus; a die expression,
called a die for short, is one group or two dice joined. How joined dice
are nested is kept, though nothing that is rolled depends on it: the
groups from left to right decide all the rest, and `groups` is the view
in which that is said.

The rightmost nesting of a chain of groups is the one that reading
notation produces.
-/
import DiceNotation.Word

namespace DiceNotation

-- =========================================================== the types

/-- Equal dice rolled together, and a bonus added to their sum. -/
structure Group where
  count : Positive
  sides : Positive
  bonus : Int32
deriving DecidableEq

/-- A die expression: one group, or two dice joined. -/
inductive Die where
  | group (dice : Group)
  | join (left right : Die)
deriving DecidableEq

namespace Die

-- ============================================================ the view

/-- The groups of a die, left to right, in front of further groups. -/
def groupsOnto : Die → List Group → List Group
  | .group g, rest => g :: rest
  | .join left right, rest => left.groupsOnto (right.groupsOnto rest)

/-- The groups of a die, left to right. -/
def groups (die : Die) : List Group := die.groupsOnto []

/-- Further groups stand behind those of the die. -/
theorem groupsOnto_eq (die : Die) (rest : List Group) :
    die.groupsOnto rest = die.groups ++ rest := by
  unfold groups
  induction die generalizing rest with
  | group g => rfl
  | join left right ihl ihr =>
      simp only [groupsOnto]
      rw [ihl, ihl (right.groupsOnto []), ihr rest, List.append_assoc]

@[simp] theorem groups_group (g : Group) :
    (Die.group g).groups = [g] := rfl

@[simp] theorem groups_join (left right : Die) :
    (Die.join left right).groups = left.groups ++ right.groups := by
  show left.groupsOnto right.groups = _
  rw [groupsOnto_eq]

-- ============================================================== chains

/-- A die joined with further groups, nested to the right. -/
def chain : Die → List Group → Die
  | first, [] => first
  | first, g :: more => .join first (chain (.group g) more)

/-- A chain has the groups of its first die and then the others. -/
theorem groups_chain (first : Die) (more : List Group) :
    (first.chain more).groups = first.groups ++ more := by
  induction more generalizing first with
  | nil => simp [chain]
  | cons g more ih => simp [chain, ih]

-- =============================================================== sides

/-- The largest number of sides in a die. -/
def largestSides : Die → UInt32
  | .group g => g.sides.val
  | .join left right => max left.largestSides right.largestSides

end Die

end DiceNotation
