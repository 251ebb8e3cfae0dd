/-
Reading JSON values. The text must be JSON to the letter: no comma after
the last item, no leading zeros, no control characters inside strings,
and nothing but blanks behind the value. The blanks are the four of
JSON.

How deep values are nested does not matter here; a bound on the depth is
the affair of whoever asks what a value means. Reading goes by fuel, and
twice the length of the text is enough of it: each step uses a character
up or is followed by one that does.
-/
import DiceNotation.Json.Value
import DiceNotation.Reader

namespace DiceNotation.Json

-- ============================================================== tokens

/-- The blanks of JSON. -/
def isSpace (c : Char) : Bool :=
  c == ' ' || c == '\t' || c == '\n' || c == '\r'

/-- A text without its leading blanks. -/
def skipSpace (text : List Char) : List Char := text.dropWhile isSpace

/-- An exact text. -/
def exactly : List Char → Reader Unit
  | [], text => some ((), text)
  | _ :: _, [] => none
  | e :: expected, c :: text =>
      if e = c then exactly expected text else none

/-- One digit or more. -/
def digits : Reader (List Char) := fun text =>
  match Decimal.leadingDigits text with
  | [] => none
  | run => some (run, Decimal.afterDigits text)

/-- The integer part of a number, without its sign: a zero, or digits
that do not start with one. -/
def wholePart : Reader (List Char) := fun text =>
  match text with
  | '0' :: rest => some (['0'], rest)
  | _ => digits text

/-- The fraction of a number, which may be left out. -/
def fraction : Reader (List Char) := fun text =>
  match text with
  | '.' :: rest => (digits rest).map fun (run, rest) => ('.' :: run, rest)
  | _ => some ([], text)

/-- The exponent of a number, which may be left out. -/
def exponent : Reader (List Char) := fun text =>
  match text with
  | [] => some ([], text)
  | e :: rest =>
      if e = 'e' ∨ e = 'E' then
        match rest with
        | '+' :: rest =>
            (digits rest).map fun (run, rest) => (e :: '+' :: run, rest)
        | '-' :: rest =>
            (digits rest).map fun (run, rest) => (e :: '-' :: run, rest)
        | _ => (digits rest).map fun (run, rest) => (e :: run, rest)
      else some ([], text)

/-- A number without its sign. -/
def unsignedNumber : Reader (List Char) := fun text => do
  let (whole, text) ← wholePart text
  let (fraction, text) ← fraction text
  let (exponent, text) ← exponent text
  return (whole ++ fraction ++ exponent, text)

/-- A number. -/
def number : Reader (List Char) := fun text =>
  match text with
  | '-' :: rest =>
      (unsignedNumber rest).map fun (run, rest) => ('-' :: run, rest)
  | _ => unsignedNumber text

/-- What is left of a string, its closing quote included. -/
def stringTail : Reader (List Char)
  | [] => none
  | '"' :: rest => some ([], rest)
  | '\\' :: 'u' :: a :: b :: c :: d :: rest =>
      if (unit? a b c d).isSome then
        (stringTail rest).map fun (run, rest) =>
          ('\\' :: 'u' :: a :: b :: c :: d :: run, rest)
      else none
  | '\\' :: c :: rest =>
      if (escaped? c).isSome then
        (stringTail rest).map fun (run, rest) => ('\\' :: c :: run, rest)
      else none
  | c :: rest =>
      if c.toNat < 0x20 ∨ c = '\\' then none
      else (stringTail rest).map fun (run, rest) => (c :: run, rest)

-- ============================================================== values

mutual

/-- A value, with blanks before it. -/
def value : Nat → Reader Value
  | 0, _ => none
  | fuel + 1, text =>
      match skipSpace text with
      | [] => none
      | 'n' :: rest =>
          (exactly ['u', 'l', 'l'] rest).map fun ((), rest) =>
            (.null, rest)
      | 't' :: rest =>
          (exactly ['r', 'u', 'e'] rest).map fun ((), rest) =>
            (.bool true, rest)
      | 'f' :: rest =>
          (exactly ['a', 'l', 's', 'e'] rest).map fun ((), rest) =>
            (.bool false, rest)
      | '"' :: rest =>
          (stringTail rest).map fun (source, rest) =>
            (.string source, rest)
      | '[' :: rest =>
          match skipSpace rest with
          | ']' :: rest => some (.array [], rest)
          | _ =>
              (items fuel rest).map fun (items, rest) =>
                (.array items, rest)
      | '\x7b' :: rest =>
          match skipSpace rest with
          | '\x7d' :: rest => some (.object [], rest)
          | _ =>
              (members fuel rest).map fun (members, rest) =>
                (.object members, rest)
      | start =>
          (number start).map fun (literal, rest) =>
            (.number literal, rest)

/-- The items of an array, one at least, and the closing bracket. -/
def items : Nat → Reader (List Value)
  | 0, _ => none
  | fuel + 1, text =>
      match value fuel text with
      | none => none
      | some (item, text) =>
          match skipSpace text with
          | ']' :: rest => some ([item], rest)
          | ',' :: rest =>
              (items fuel rest).map fun (more, rest) =>
                (item :: more, rest)
          | _ => none

/-- The members of an object, one at least, and the closing brace. -/
def members : Nat → Reader (List (List Char × Value))
  | 0, _ => none
  | fuel + 1, text =>
      match skipSpace text with
      | '"' :: rest =>
          match stringTail rest with
          | none => none
          | some (key, text) =>
              match skipSpace text with
              | ':' :: rest =>
                  match value fuel rest with
                  | none => none
                  | some (value, text) =>
                      match skipSpace text with
                      | '\x7d' :: rest => some ([(key, value)], rest)
                      | ',' :: rest =>
                          (members fuel rest).map fun (more, rest) =>
                            ((key, value) :: more, rest)
                      | _ => none
              | _ => none
      | _ => none

end

/-- The value that a text is. -/
def Value.ofText? (text : List Char) : Option Value :=
  match value (2 * text.length + 1) text with
  | some (found, rest) =>
      if (skipSpace rest).isEmpty then some found else none
  | none => none

end DiceNotation.Json
