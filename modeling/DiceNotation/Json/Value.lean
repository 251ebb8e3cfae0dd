/-
JSON values. The scalars are kept as they are written: a number as its
literal, a string as what stands between its quotes, escapes and all.
What a scalar means is asked separately, because the answer may be that
it means nothing here: a literal need not be an integer, and escapes can
name half of a character.

A key of an object is a string like any other. The members of an object
keep their order, and a key may come more than once; whoever reads a
record decides what that means.
-/
import DiceNotation.Decimal
import DiceNotation.Text.Hexadecimal

namespace DiceNotation.Json

-- ============================================================ the type

/-- A JSON value. -/
inductive Value where
  | null
  | bool (value : Bool)
  /-- A number, as written. -/
  | number (literal : List Char)
  /-- A string, as written between its quotes. -/
  | string (source : List Char)
  | array (items : List Value)
  /-- The members in order, each a key as written and a value. -/
  | object (members : List (List Char × Value))

-- ============================================================= numbers

/-- The integer that a literal is, unless it has a fraction or an
exponent, or is a zero with a sign. -/
def integer? : List Char → Option Int
  | '-' :: digits =>
      if digits.all Char.isDigit && Decimal.value digits != 0 then
        some (-(Decimal.value digits : Int))
      else none
  | digits =>
      if digits.all Char.isDigit then some (Decimal.value digits)
      else none

/-- An integer as a number. -/
def Value.ofInt (n : Int) : Value := .number (Decimal.ofInt n)

-- ============================================================= strings

/-- The 16-bit unit that four hexadecimal digits name. -/
def unit? (a b c d : Char) : Option Nat :=
  Text.hexValue? 0 [a, b, c, d]

/-- The character that a one-letter escape stands for. -/
def escaped? : Char → Option Char
  | '"' => some '"'
  | '\\' => some '\\'
  | '/' => some '/'
  | 'b' => some '\x08'
  | 'f' => some '\x0c'
  | 'n' => some '\n'
  | 'r' => some '\r'
  | 't' => some '\t'
  | _ => none

/-- Whether a unit is the first half of a character. -/
def isHighHalf (unit : Nat) : Bool := 0xd800 ≤ unit && unit < 0xdc00

/-- Whether a unit is the second half of a character. -/
def isLowHalf (unit : Nat) : Bool := 0xdc00 ≤ unit && unit < 0xe000

/-- The character whose halves are two units. -/
def ofHalves (high low : Nat) : Char :=
  Char.ofNat (0x10000 + (high - 0xd800) * 0x400 + (low - 0xdc00))

/-- The text that a string means, unless an escape names half of a
character without the other half behind it. -/
def unescape? : List Char → Option (List Char)
  | [] => some []
  | '\\' :: 'u' :: a :: b :: c :: d :: rest =>
      match unit? a b c d with
      | none => none
      | some unit =>
          if isHighHalf unit then
            match rest with
            | '\\' :: 'u' :: e :: f :: g :: h :: rest =>
                match unit? e f g h with
                | none => none
                | some low =>
                    if isLowHalf low then
                      (unescape? rest).map (ofHalves unit low :: ·)
                    else none
            | _ => none
          else if isLowHalf unit then none
          else (unescape? rest).map (Char.ofNat unit :: ·)
  | '\\' :: c :: rest =>
      match escaped? c with
      | none => none
      | some meant => (unescape? rest).map (meant :: ·)
  | c :: rest => (unescape? rest).map (c :: ·)

/-- A character as it stands in a string. -/
def escape (c : Char) : List Char :=
  match c with
  | '"' => ['\\', '"']
  | '\\' => ['\\', '\\']
  | '\x08' => ['\\', 'b']
  | '\x0c' => ['\\', 'f']
  | '\n' => ['\\', 'n']
  | '\r' => ['\\', 'r']
  | '\t' => ['\\', 't']
  | c =>
      if c.toNat < 0x20 then
        ['\\', 'u', '0', '0', Nat.digitChar (c.toNat / 16),
          Nat.digitChar (c.toNat % 16)]
      else [c]

/-- A text as a string. -/
def Value.ofText (text : List Char) : Value :=
  .string (text.flatMap escape)

end DiceNotation.Json
