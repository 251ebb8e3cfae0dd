/-
Hexadecimal digits, in either case.
-/

namespace DiceNotation.Text

/-- The value of a hexadecimal digit. -/
def hexDigit? (c : Char) : Option Nat :=
  if c.isDigit then some (c.toNat - '0'.toNat)
  else if 'a' ≤ c ∧ c ≤ 'f' then some (c.toNat - 'a'.toNat + 10)
  else if 'A' ≤ c ∧ c ≤ 'F' then some (c.toNat - 'A'.toNat + 10)
  else none

/-- The value of hexadecimal digits, behind digits of a given value. -/
def hexValue? : Nat → List Char → Option Nat
  | sofar, [] => some sofar
  | sofar, c :: digits =>
      match hexDigit? c with
      | none => none
      | some d => hexValue? (sofar * 16 + d) digits

end DiceNotation.Text
