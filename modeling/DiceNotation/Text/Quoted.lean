/-
Quoted text, as messages and records show it: between double quotes,
the usual escapes for the few characters that have one, and every
unprintable character by its code in hexadecimal, between braces and
without leading zeros. A single quote stands as it is.
-/
import DiceNotation.Text.Unprintable

namespace DiceNotation.Text

/-- How one character stands inside quotes. -/
def spell (c : Char) : List Char :=
  match c with
  | '\x00' => ['\\', '0']
  | '\t' => ['\\', 't']
  | '\n' => ['\\', 'n']
  | '\r' => ['\\', 'r']
  | '"' => ['\\', '"']
  | '\\' => ['\\', '\\']
  | c =>
      if isUnprintable c then
        ['\\', 'u', '\x7b'] ++ Nat.toDigits 16 c.toNat ++ ['\x7d']
      else [c]

/-- A text between quotes, each character spelt. -/
def quote (text : List Char) : List Char :=
  '"' :: text.flatMap spell ++ ['"']

/-- The quoted form of a string. -/
def quoteString (text : String) : String :=
  String.ofList (quote text.toList)

end DiceNotation.Text
