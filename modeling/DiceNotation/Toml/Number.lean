/-
Numbers of TOML. The digits of a number may have single underscores
between them. A decimal integer has no leading zeros and may have a
sign; one in another base may have zeros and has none. Integers are
signed 64-bit words, and out of range they are refused.

A float is kept as the parts it is written in, but it has to be finite
as a binary number of double precision: less than the halfway point
above the largest of those, which is 2^1024 - 2^970.
-/
import DiceNotation.Decimal
import DiceNotation.Reader
import DiceNotation.Text.Hexadecimal
import DiceNotation.Word

namespace DiceNotation.Toml.Number

-- ============================================================== digits

/-- Whether a character is a digit of a base, up to sixteen. -/
def isDigit (base : Nat) (c : Char) : Bool :=
  match Text.hexDigit? c with
  | some d => d < base
  | none => false

/-- Whether single underscores, if any, stand between digits: none at
either end and no two together. -/
def wellSpaced : List Char → Bool
  | [] => false
  | ['_'] => false
  | '_' :: _ => false
  | [_] => true
  | _ :: '_' :: rest => wellSpaced rest
  | _ :: rest => wellSpaced rest

/-- The digits of a number, underscores and all, and what follows
them. -/
def digits (base : Nat) (leadingZeros : Bool) : Reader (List Char) :=
  fun text =>
    let isPart := fun c => isDigit base c || c == '_'
    let run := text.takeWhile isPart
    if wellSpaced run
        && (leadingZeros || run.length == 1 || run.head? != some '0') then
      some (run, text.dropWhile isPart)
    else none

/-- The digits of a number behind an optional minus sign. -/
def signedDigits (leadingZeros : Bool) : Reader (Bool × List Char) :=
  fun text =>
    match text with
    | '-' :: rest =>
        (digits 10 leadingZeros rest).map fun (run, rest) =>
          ((true, run), rest)
    | _ =>
        (digits 10 leadingZeros text).map fun (run, rest) =>
          ((false, run), rest)

/-- The value of digits, underscores not counted. -/
def value (base : Nat) (run : List Char) : Nat :=
  (run.filterMap Text.hexDigit?).foldl (fun n d => n * base + d) 0

-- ============================================================ integers

/-- The integer that a word is in a base without signs. -/
def unsignedInteger? (base : Nat) (word : List Char) : Option Int64 :=
  match digits base true word with
  | some (run, []) => Word.signed64? (value base run)
  | _ => none

/-- The integer that a word is in base ten. -/
def decimalInteger? (word : List Char) : Option Int64 :=
  match signedDigits false word with
  | some ((negative, run), []) =>
      let n : Int := value 10 run
      Word.signed64? (if negative then -n else n)
  | _ => none

/-- The integer that a word is. -/
def integer? : List Char → Option Int64
  | '0' :: 'x' :: rest => unsignedInteger? 16 rest
  | '0' :: 'o' :: rest => unsignedInteger? 8 rest
  | '0' :: 'b' :: rest => unsignedInteger? 2 rest
  | word => decimalInteger? word

-- ============================================================== floats

/-- The least number that is not finite in double precision. -/
def finiteBound : Nat := Nat.pow 2 1024 - Nat.pow 2 970

/-- Whether a number of so many units of a power of ten is finite in
double precision. -/
def isFinite (units : Nat) (power : Int) : Bool :=
  let places := (Decimal.ofNat units).length + power
  if units = 0 ∨ places < 309 then true
  else if 309 < places then false
  else if 0 ≤ power then
    units * Nat.pow 10 power.toNat < finiteBound
  else units < finiteBound * Nat.pow 10 (-power).toNat

/-- The parts of a float, each with its digits as written. -/
structure Parts where
  negative : Bool
  whole : List Char
  fraction : List Char
  exponentNegative : Bool
  exponent : List Char
deriving DecidableEq, Repr

/-- Whether a float is finite in double precision. -/
def Parts.isFinite (parts : Parts) : Bool :=
  let fraction := parts.fraction.filter (· != '_')
  let exponent : Int := value 10 parts.exponent
  Number.isFinite (value 10 (parts.whole ++ fraction))
    ((if parts.exponentNegative then -exponent else exponent)
      - fraction.length)

/-- A float: its parts, or one of the words for what has none. -/
inductive FloatLiteral where
  | finite (parts : Parts)
  | infinity (negative : Bool)
  | notANumber (negative : Bool)
deriving DecidableEq, Repr

/-- The float that a word without digits is. -/
def digitless? : List Char → Option Number.FloatLiteral
  | ['i', 'n', 'f'] => some (.infinity false)
  | ['-', 'i', 'n', 'f'] => some (.infinity true)
  | ['n', 'a', 'n'] => some (.notANumber false)
  | ['-', 'n', 'a', 'n'] => some (.notANumber true)
  | _ => none

end DiceNotation.Toml.Number
