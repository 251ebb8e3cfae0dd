/-
Dice in notation, as they are written: the count is always written, the
bonus only when it is not zero and then with its sign, and joined dice
stand left to right around an ampersand. The nesting of joined dice is
not written.

Texts are built in front of a rest, so that writing takes one pass
however deeply dice are nested.
-/
import DiceNotation.Decimal
import DiceNotation.Die

namespace DiceNotation

/-- A bonus with its sign; nothing for a bonus of zero. -/
def writtenBonus (bonus : Int32) : List Char :=
  if bonus = 0 then []
  else if 0 < bonus then '+' :: Decimal.ofInt bonus.toInt
  else Decimal.ofInt bonus.toInt

/-- A group in notation. -/
def Group.written (g : Group) : List Char :=
  Decimal.ofNat g.count.toNat ++ 'd' :: Decimal.ofNat g.sides.toNat
    ++ writtenBonus g.bonus

namespace Die

/-- What stands between joined dice. -/
def joint : List Char := [' ', '&', ' ']

/-- A die in notation, in front of a further text. -/
def writtenOnto : Die → List Char → List Char
  | .group g, rest => g.written ++ rest
  | .join left right, rest =>
      left.writtenOnto (joint ++ right.writtenOnto rest)

/-- A die in notation. -/
def written (die : Die) : List Char := die.writtenOnto []

/-- A die in notation, as a string. -/
def toString (die : Die) : String := String.ofList die.written

/-- A further text stands behind the notation. -/
theorem writtenOnto_eq (die : Die) (rest : List Char) :
    die.writtenOnto rest = die.written ++ rest := by
  unfold written
  induction die generalizing rest with
  | group g => simp [writtenOnto]
  | join left right ihl ihr =>
      simp only [writtenOnto]
      rw [ihl, ihl (joint ++ right.writtenOnto []), ihr rest]
      simp only [List.append_assoc]

/-- Joined dice are written one after the other. -/
theorem written_join (left right : Die) :
    (Die.join left right).written
      = left.written ++ joint ++ right.written := by
  show left.writtenOnto (joint ++ right.written) = _
  rw [writtenOnto_eq, List.append_assoc]

end Die

end DiceNotation
