/-
The tokens of TOML. Every text is cut into tokens in one way, whatever
they will mean: strings, runs of the characters of a bare word, blanks,
comments, line ends and marks. A carriage return belongs to the line end
behind it and has no place anywhere else; one mark of byte order may
open the text.
-/
import DiceNotation.Toml.Quoted

namespace DiceNotation.Toml

-- ============================================================ the type

/-- A token of TOML. -/
inductive Token where
  /-- Blanks inside a line. -/
  | blank (text : List Char)
  | newline
  | comment
  /-- A run of letters, digits, underscores and hyphens. -/
  | word (text : List Char)
  /-- A string and what it means. -/
  | string (multiline : Bool) (text : List Char)
  | equals
  | period
  | comma
  | colon
  | plus
  | openBrace
  | closeBrace
  | openBracket
  | closeBracket
deriving DecidableEq, Repr

namespace Token

-- =========================================================== one token

/-- A character of a bare word. -/
def isWordChar (c : Char) : Bool :=
  c.isAlphanum || c == '-' || c == '_'

/-- A character that may stand in a comment. -/
def isCommentChar (c : Char) : Bool := c == '\t' || 0x20 ≤ c.toNat

/-- The mark that a character is on its own. -/
def mark? : Char → Option Token
  | '=' => some .equals
  | '.' => some .period
  | ',' => some .comma
  | ':' => some .colon
  | '+' => some .plus
  | '\x7b' => some .openBrace
  | '\x7d' => some .closeBrace
  | '[' => some .openBracket
  | ']' => some .closeBracket
  | '\n' => some .newline
  | _ => none

/-- The token a text starts with. -/
def read : Reader Token
  | [] => none
  | c :: rest =>
      match mark? c with
      | some token => some (token, rest)
      | none =>
          if Quoted.isLineBlank c then
            some (.blank (c :: rest.takeWhile Quoted.isLineBlank),
              rest.dropWhile Quoted.isLineBlank)
          else if c = '#' then
            some (.comment, rest.dropWhile isCommentChar)
          else if c = '"' ∨ c = '\x27' then
            (Quoted.string c rest).map fun ((multiline, text), rest) =>
              (.string multiline text, rest)
          else if isWordChar c then
            some (.word (c :: rest.takeWhile isWordChar),
              rest.dropWhile isWordChar)
          else none

-- ========================================================== all tokens

/-- The tokens of a text, so many at most. -/
def readAll : Nat → List Char → Option (List Token)
  | _, [] => some []
  | 0, _ :: _ => none
  | fuel + 1, text =>
      match read text with
      | none => none
      | some (token, rest) => (readAll fuel rest).map (token :: ·)

/-- A text in which a carriage return before a line feed is gone. -/
def foldLineEnds : List Char → List Char
  | [] => []
  | '\r' :: '\n' :: rest => '\n' :: foldLineEnds rest
  | c :: rest => c :: foldLineEnds rest

/-- A text without a mark of byte order at its start. -/
def dropByteOrder : List Char → List Char
  | '\ufeff' :: rest => rest
  | text => text

/-- The tokens of a text. -/
def ofText? (text : List Char) : Option (List Token) :=
  let text := foldLineEnds (dropByteOrder text)
  readAll text.length text

end Token

end DiceNotation.Toml
