/-
Strings of TOML, as they are written between quotes. A basic string
stands between double quotes and knows escapes; a literal string stands
between single quotes and means every character as it is. Either comes
on one line or, between three quotes, on several.

A string on several lines drops a line end right behind its opening
quotes. One or two quotes may stand in it, and up to two more may stand
directly before the three that close it. In a basic one, a backslash at
the end of a line takes the line end and all blanks behind it away.
-/
import DiceNotation.Reader
import DiceNotation.Text.Hexadecimal

namespace DiceNotation.Toml.Quoted

-- ============================================================= escapes

/-- A character given by so many hexadecimal digits. -/
def byCode (length : Nat) : Reader (List Char) := fun text =>
  if text.length < length then none
  else
    match Text.hexValue? 0 (text.take length) with
    | none => none
    | some code =>
        if code.isValidChar then
          some ([Char.ofNat code], text.drop length)
        else none

/-- A blank inside a line. -/
def isLineBlank (c : Char) : Bool := c == ' ' || c == '\t'

/-- What an escape means, read behind its backslash. -/
def escape (multiline : Bool) : Reader (List Char)
  | [] => none
  | '"' :: rest => some (['"'], rest)
  | '\\' :: rest => some (['\\'], rest)
  | 'b' :: rest => some (['\x08'], rest)
  | 'f' :: rest => some (['\x0c'], rest)
  | 'n' :: rest => some (['\n'], rest)
  | 'r' :: rest => some (['\r'], rest)
  | 't' :: rest => some (['\t'], rest)
  | 'u' :: rest => byCode 4 rest
  | 'U' :: rest => byCode 8 rest
  | text =>
      if multiline then
        match text.dropWhile isLineBlank with
        | '\n' :: rest =>
            some ([], rest.dropWhile fun c => isLineBlank c || c == '\n')
        | _ => none
      else none

-- ============================================================== bodies

/-- Whether a character may stand in a string for itself. -/
def isPlain (c : Char) : Bool :=
  c == '\t' || (0x20 ≤ c.toNat && c.toNat != 0x7f)

/-- Puts a text in front of what a reader found. -/
def prepend (text : List Char) :
    Option (List Char × List Char) → Option (List Char × List Char) :=
  Option.map fun (found, rest) => (text ++ found, rest)

/-- What a string means from some point on, up to and with the quotes
that close it. -/
def body (mark : Char) (multiline : Bool) : Nat → Reader (List Char)
  | 0, _ => none
  | _ + 1, [] => none
  | fuel + 1, c :: rest =>
      if c = mark then
        if multiline then
          let run := 1 + (rest.takeWhile (· == mark)).length
          if run < 3 then
            prepend (List.replicate run mark)
              (body mark multiline fuel (rest.drop (run - 1)))
          else
            some (List.replicate (min run 5 - 3) mark,
              rest.drop (min run 5 - 1))
        else some ([], rest)
      else if c = '\n' then
        if multiline then
          prepend [c] (body mark multiline fuel rest)
        else none
      else if c = '\\' ∧ mark = '"' then
        match escape multiline rest with
        | none => none
        | some (meant, rest) =>
            prepend meant (body mark multiline fuel rest)
      else if isPlain c then
        prepend [c] (body mark multiline fuel rest)
      else none

/-- A string, read behind its first quote: whether it is of the kind for
several lines, and what it means. -/
def string (mark : Char) : Reader (Bool × List Char) := fun text =>
  let single :=
    (body mark false (text.length + 1) text).map fun (found, rest) =>
      ((false, found), rest)
  match text with
  | a :: b :: rest =>
      if a = mark ∧ b = mark then
        let rest :=
          match rest with
          | '\n' :: rest => rest
          | _ => rest
        (body mark true (rest.length + 1) rest).map fun (found, rest) =>
          ((true, found), rest)
      else single
  | _ => single

end DiceNotation.Toml.Quoted
