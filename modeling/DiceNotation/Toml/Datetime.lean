/-
Dates and times of TOML: a date, a time of day, or both with a T or a
blank between them; only with both may an offset from universal time
follow. Months run to 12, days to 31 in every month, hours to 24 and
minutes and seconds to 59; an offset has two digits for the hours and
two for the minutes, whatever they are.
-/
import DiceNotation.Decimal
import DiceNotation.Reader

namespace DiceNotation.Toml.Datetime

/-- The value of two digits. -/
def twoDigits : Reader Nat
  | a :: b :: rest =>
      if a.isDigit && b.isDigit then some (Decimal.value [a, b], rest)
      else none
  | _ => none

/-- What follows a date. -/
def afterDate? (text : List Char) : Option (List Char) := do
  let (_, text) ← twoDigits text
  let (_, text) ← twoDigits text
  let '-' :: text := text | none
  let (month, text) ← twoDigits text
  let '-' :: text := text | none
  let (day, text) ← twoDigits text
  if 1 ≤ month ∧ month ≤ 12 ∧ 1 ≤ day ∧ day ≤ 31 then some text
  else none

/-- What follows a time of day. -/
def afterTime? (text : List Char) : Option (List Char) := do
  let (hour, text) ← twoDigits text
  let ':' :: text := text | none
  let (minute, text) ← twoDigits text
  let ':' :: text := text | none
  let (second, text) ← twoDigits text
  if hour ≤ 24 ∧ minute ≤ 59 ∧ second ≤ 59 then
    match text with
    | '.' :: text =>
        if (Decimal.leadingDigits text).isEmpty then none
        else some (Decimal.afterDigits text)
    | _ => some text
  else none

/-- Whether a text is an offset, or nothing. -/
def isOffset : List Char → Bool
  | [] => true
  | ['Z'] => true
  | ['z'] => true
  | [sign, a, b, ':', c, d] =>
      (sign == '+' || sign == '-')
        && a.isDigit && b.isDigit && c.isDigit && d.isDigit
  | _ => false

/-- Whether a text is a date, a time or both. -/
def isValid (text : List Char) : Bool :=
  if text[2]? = some ':' then afterTime? text == some []
  else
    match afterDate? text with
    | none => false
    | some [] => true
    | some (mark :: time) =>
        if mark = 'T' ∨ mark = 't' ∨ mark = ' ' then
          match afterTime? time with
          | none => false
          | some offset => isOffset offset
        else false

end DiceNotation.Toml.Datetime
