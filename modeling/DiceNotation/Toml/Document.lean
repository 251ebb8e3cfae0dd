/-
Documents of TOML. The tokens of a document are read line by line, and
values as drafts; entries go to the section whose header stands last
before them. The sections then make the entries of the document.

Reading goes by fuel, and twice the number of tokens is enough of it.
-/
import DiceNotation.Toml.Section
import DiceNotation.Toml.Token

namespace DiceNotation.Toml

/-- Reads a value at the front of tokens and gives what follows. -/
abbrev TokenReader (α : Type) := List Token → Option (α × List Token)

-- ============================================================ skipping

/-- Whether a token is blanks. -/
def Token.isBlank : Token → Bool
  | .blank _ => true
  | _ => false

/-- Whether a token separates nothing but items of an array, or
lines. -/
def Token.isFiller : Token → Bool
  | .blank _ => true
  | .newline => true
  | .comment => true
  | _ => false

/-- Tokens without blanks at the front. -/
def skipBlank (tokens : List Token) : List Token :=
  tokens.dropWhile Token.isBlank

/-- Tokens without blanks, comments and line ends at the front. -/
def skipFiller (tokens : List Token) : List Token :=
  tokens.dropWhile Token.isFiller

/-- What follows the end of a line; a comment may stand before it. -/
def lineEnd : TokenReader Unit := fun tokens =>
  match skipBlank tokens with
  | [] => some ((), [])
  | .comment :: rest => some ((), rest)
  | .newline :: rest => some ((), rest)
  | _ => none

-- ============================================================= scalars

/-- Puts a word behind a mark. -/
def wordAfter (mark : List Char) : TokenReader (List Char)
  | .word text :: rest => some (mark ++ text, rest)
  | _ => none

/-- A word behind a mark, if the mark comes next, else nothing. -/
def wordBehind (mark : Token) (text : List Char) :
    TokenReader (List Char) := fun tokens =>
  match tokens with
  | [] => some ([], tokens)
  | token :: rest =>
      if token = mark then wordAfter text rest else some ([], tokens)

/-- The minutes and the rest of a time, behind the colon of its
hours. -/
def clock : TokenReader (List Char) := fun tokens => do
  let (minutes, tokens) ← wordAfter [] tokens
  let .colon :: tokens := tokens | none
  let (seconds, tokens) ← wordAfter [':'] tokens
  let (fraction, tokens) ← wordBehind .period ['.'] tokens
  let (offset, tokens) ← wordBehind .plus ['+'] tokens
  let (offsetMinutes, tokens) ← wordBehind .colon [':'] tokens
  return (minutes ++ seconds ++ fraction ++ offset ++ offsetMinutes,
    tokens)

/-- A date or a time that starts with a word, and with a colon behind it
if that was read already. -/
def datetime (word : List Char) (colonRead : Bool) :
    TokenReader Draft := fun tokens => do
  let start := if colonRead then word ++ [':'] else word
  let (start, tokens) :=
    match tokens with
    | .blank [' '] :: .word hours :: rest =>
        (start ++ ' ' :: hours, rest)
    | _ => (start, tokens)
  let (text, tokens) ←
    if colonRead then
      (clock tokens).map fun (text, rest) => (start ++ text, rest)
    else
      match tokens with
      | .colon :: rest =>
          (clock rest).map fun (text, rest) =>
            (start ++ ':' :: text, rest)
      | _ => some (start, tokens)
  return (.datetime text, tokens)

/-- The exponent of a float: behind a lone letter, it is another word,
which a plus sign may precede. -/
def floatExponent (text : List Char) :
    TokenReader (Bool × List Char) := fun tokens =>
  let whole := fun (word : List Char)
      (read : Reader (Bool × List Char)) (tokens : List Token) =>
    match read word with
    | some (found, []) => some (found, tokens)
    | _ => none
  match text with
  | [] =>
      let tokens :=
        match tokens with
        | .plus :: rest => rest
        | _ => tokens
      match tokens with
      | .word word :: rest =>
          whole word (fun word => (Number.digits 10 true word).map
            fun (run, left) => ((false, run), left)) rest
      | _ => none
  | text => whole text (Number.signedDigits true) tokens

/-- What follows the whole part and the fraction of a float: its
exponent, or nothing. -/
def floatTail (text : List Char) : TokenReader (Bool × List Char) :=
  fun tokens =>
    match text with
    | [] => some ((false, []), tokens)
    | e :: rest =>
        if e = 'e' ∨ e = 'E' then floatExponent rest tokens else none

/-- A float, from its first word and the word of its fraction. -/
def float (word : List Char) (fraction : Option (List Char)) :
    TokenReader Draft := fun tokens => do
  let ((negative, whole), left) ← Number.signedDigits false word
  let (fractionDigits, left) ←
    match fraction, left with
    | none, left => some ([], left)
    | some text, [] => Number.digits 10 true text
    | some _, _ :: _ => none
  let ((exponentNegative, exponent), tokens) ← floatTail left tokens
  let parts : Number.Parts :=
    ⟨negative, whole, fractionDigits, exponentNegative, exponent⟩
  if parts.isFinite then return (.scalar (.float (.finite parts)), tokens)
  else none

/-- Whether a word starts as an integer in a base other than ten. -/
def hasBase : List Char → Bool
  | '0' :: c :: _ => c == 'x' || c == 'o' || c == 'b'
  | _ => false

/-- A number that starts with a word. -/
def number (word : List Char) : TokenReader Draft := fun tokens =>
  if hasBase word then
    (Number.integer? word).map fun n =>
      (.scalar (.integer n), tokens)
  else if word.contains 'e' || word.contains 'E' then
    float word none tokens
  else
    match tokens with
    | .period :: .word fraction :: rest => float word (some fraction) rest
    | .period :: _ => none
    | _ =>
        match Number.digitless? word with
        | some float => some (.scalar (.float float), tokens)
        | none =>
            (Number.integer? word).map fun n =>
              (.scalar (.integer n), tokens)

/-- Whether a word has a hyphen that no letter of an exponent
precedes. -/
def looksLikeDate (word : List Char) : Bool :=
  word.contains 'T' || word.contains 't'
    || (word.tail.contains '-'
      && !(word.zip word.tail).any fun (a, b) =>
        (a == 'e' || a == 'E') && b == '-')

/-- A number, date or time that starts with a word. -/
def numberOrDate (word : List Char) : TokenReader Draft := fun tokens =>
  if looksLikeDate word then datetime word false tokens
  else
    match tokens with
    | .colon :: rest => datetime word true rest
    | _ => number word tokens

/-- The value that starts with a word. -/
def wordValue (word : List Char) : TokenReader Draft := fun tokens =>
  if word = ['t', 'r', 'u', 'e'] then some (.scalar (.boolean true), tokens)
  else if word = ['f', 'a', 'l', 's', 'e'] then
    some (.scalar (.boolean false), tokens)
  else if word = ['i', 'n', 'f'] ∨ word = ['n', 'a', 'n'] then
    numberOrDate word tokens
  else
    match word with
    | [] => none
    | c :: _ =>
        if c = '-' ∨ c.isDigit then numberOrDate word tokens else none

-- ================================================================ keys

/-- A key: a word, or a string on one line. -/
def key : TokenReader Key
  | .word text :: rest => some (text, rest)
  | .string false text :: rest => some (text, rest)
  | _ => none

/-- The keys that follow the first one of a dotted key, each behind a
period. -/
def moreKeys : Nat → TokenReader (List Key)
  | 0, _ => none
  | fuel + 1, tokens =>
      match skipBlank tokens with
      | .period :: rest =>
          match key (skipBlank rest) with
          | none => none
          | some (key, rest) =>
              (moreKeys fuel rest).map fun (keys, rest) =>
                (key :: keys, rest)
      | rest => some ([], rest)

/-- A dotted key, and the blanks behind it. -/
def path : TokenReader (List Key) := fun tokens =>
  match key tokens with
  | none => none
  | some (first, rest) =>
      (moreKeys (rest.length + 1) rest).map fun (keys, rest) =>
        (first :: keys, rest)

-- ============================================================== values

mutual

/-- A value. -/
def value : Nat → TokenReader Draft
  | 0, _ => none
  | fuel + 1, tokens =>
      match tokens with
      | .string _ text :: rest => some (.scalar (.string text), rest)
      | .word word :: rest => wordValue word rest
      | .plus :: .word word :: rest => number word rest
      | .openBracket :: rest =>
          (items fuel rest).map fun (items, rest) => (.array items, rest)
      | .openBrace :: rest =>
          match skipBlank rest with
          | .closeBrace :: rest => some (.table false [], rest)
          | rest =>
              (entries fuel [] rest).map fun (entries, rest) =>
                (.table false entries, rest)
      | _ => none

/-- The items of an array and its closing bracket; a comma may stand
behind the last item. -/
def items : Nat → TokenReader (List Draft)
  | 0, _ => none
  | fuel + 1, tokens =>
      match skipFiller tokens with
      | .closeBracket :: rest => some ([], rest)
      | tokens =>
          match value fuel tokens with
          | none => none
          | some (item, tokens) =>
              match skipFiller tokens with
              | .comma :: rest =>
                  (items fuel rest).map fun (more, rest) =>
                    (item :: more, rest)
              | .closeBracket :: rest => some ([item], rest)
              | _ => none

/-- The entries of a table in braces, one at least, behind those read
already, and the closing brace. -/
def entries :
    Nat → List (Key × Draft) → TokenReader (List (Key × Draft))
  | 0, _, _ => none
  | fuel + 1, sofar, tokens =>
      match path tokens with
      | some (path, .equals :: rest) =>
          match value fuel (skipBlank rest) with
          | none => none
          | some (content, tokens) =>
              match addEntry path content sofar with
              | none => none
              | some sofar =>
                  match skipBlank tokens with
                  | .closeBrace :: rest => some (sofar, rest)
                  | .comma :: rest => entries fuel sofar (skipBlank rest)
                  | _ => none
      | _ => none

end

-- ============================================================ sections

/-- A header, from its first bracket to the end of its line. -/
def header : TokenReader (List Key × Bool) := fun tokens =>
  match tokens with
  | .openBracket :: .openBracket :: rest =>
      match path (skipBlank rest) with
      | some (path, .closeBracket :: .closeBracket :: rest) =>
          (lineEnd rest).map fun ((), rest) => ((path, true), rest)
      | _ => none
  | .openBracket :: rest =>
      match path (skipBlank rest) with
      | some (path, .closeBracket :: rest) =>
          (lineEnd rest).map fun ((), rest) => ((path, false), rest)
      | _ => none
  | _ => none

/-- An entry: a dotted key, an equals sign, a value and the end of the
line. -/
def entry : TokenReader (List Key × Draft) := fun tokens =>
  match path tokens with
  | some (path, .equals :: rest) =>
      match value (2 * rest.length + 1) (skipBlank rest) with
      | none => none
      | some (content, rest) =>
          (lineEnd rest).map fun ((), rest) => ((path, content), rest)
  | _ => none

/-- The sections of a document from some line on, the current one being
given by its header and what it has so far. -/
def sections : Nat → List Key → Bool → List (Key × Draft) →
    List Token → Option (List Section)
  | 0, _, _, _, _ => none
  | fuel + 1, path, isArray, sofar, tokens =>
      match skipFiller tokens with
      | [] => some [⟨path, isArray, sofar⟩]
      | .openBracket :: rest =>
          match header (.openBracket :: rest) with
          | none => none
          | some ((nextPath, nextIsArray), rest) =>
              (sections fuel nextPath nextIsArray [] rest).map
                (⟨path, isArray, sofar⟩ :: ·)
      | tokens =>
          match entry tokens with
          | none => none
          | some ((keys, content), rest) =>
              match addEntry keys content sofar with
              | none => none
              | some sofar => sections fuel path isArray sofar rest

-- =========================================================== documents

/-- The sections of the document that tokens are. -/
def sectionsOf? (tokens : List Token) : Option (List Section) :=
  sections (tokens.length + 1) [] false [] tokens

/-- The entries of the document that a text is. -/
def ofText? (text : List Char) : Option (List (Key × Value)) := do
  let tokens ← Token.ofText? text
  let sections ← sectionsOf? tokens
  Section.documentEntries? sections

end DiceNotation.Toml
