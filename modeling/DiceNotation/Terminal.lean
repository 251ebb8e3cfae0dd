/-
The terminal program. It takes its lines from the arguments or, if none
are left beside the configuration, from standard input, and hands each
to one session. What a roll gives out goes to standard output, line by
line; a rejection goes to standard error and stops nothing. A line of
standard input that is not encoded as it should be ends the reading.

Standard input is taken in two ways. A run has all of it, cut into lines;
a reading has what has come in so far, and takes a byte at a time, so
that a person is answered line by line.
-/
import DiceNotation.Config
import DiceNotation.Session

namespace DiceNotation

-- ============================================================ arguments

/-- The arguments of the program. -/
structure Arguments where
  /-- The path of the configuration, if one is given. -/
  config : Option String
  /-- The other arguments, which are lines to roll. -/
  lines : List String
  /-- Whether a path was announced and none came. -/
  pathMissing : Bool
deriving DecidableEq, Repr

namespace Arguments

/-- The argument that announces the path of the configuration. -/
def configFlag : String := "--config"

/-- Takes the first announced path out of the arguments. -/
def ofList : List String → Arguments
  | [] => ⟨none, [], false⟩
  | argument :: rest =>
      if argument = configFlag then
        match rest with
        | [] => ⟨none, [], true⟩
        | path :: lines => ⟨some path, lines, false⟩
      else
        let arguments := ofList rest
        { arguments with lines := argument :: arguments.lines }

/-- The records of taking the path out of the arguments. -/
def records (arguments : Arguments) : List Record :=
  if arguments.pathMissing then
    [⟨.warn, "--config given without a path"⟩]
  else []

end Arguments

namespace Terminal

-- ================================================================ input

/-- Bytes up to the first line feed, and what follows it; a last line
has none. -/
def splitLine (bytes : List UInt8) : List UInt8 × Option (List UInt8) :=
  (bytes.takeWhile (· != 10),
    match bytes.dropWhile (· != 10) with
    | [] => none
    | _ :: rest => some rest)

/-- A line without a carriage return at its end. -/
def dropReturn (line : List UInt8) : List UInt8 :=
  if line.getLast? = some 13 then line.dropLast else line

/-- The text of a line, if its bytes encode one. -/
def decode (line : List UInt8) : Option String :=
  String.fromUTF8? ⟨line.toArray⟩

/-- The lines of some input, so many at most. A carriage return belongs
to the line feed behind it, and an input that ends in a line feed has no
line behind it. -/
def linesWithin : Nat → List UInt8 → List (Option String)
  | _, [] => []
  | 0, _ :: _ => []
  | fuel + 1, bytes =>
      match splitLine bytes with
      | (line, none) => [decode line]
      | (line, some rest) =>
          decode (dropReturn line) :: linesWithin fuel rest

/-- The lines of some input; a line whose bytes encode no text is
missing. -/
def linesOf (input : ByteArray) : List (Option String) :=
  linesWithin input.size input.toList

-- =============================================================== output

/-- What the program writes, line by line. -/
structure Output where
  stdout : List String
  stderr : List String
deriving DecidableEq, Repr

namespace Output

/-- No output. -/
def empty : Output := ⟨[], []⟩

/-- One output and then another. -/
def append (first second : Output) : Output :=
  ⟨first.stdout ++ second.stdout, first.stderr ++ second.stderr⟩

/-- An error message. -/
def ofError (message : String) : Output :=
  ⟨[], [Record.diagnostic "jdice" message]⟩

/-- Lines as they are written, each with its end. -/
def textOf (lines : List String) : String :=
  lines.foldl (fun text line => text ++ line ++ "\n") ""

end Output

/-- What the program writes when a session answers. -/
def outputOf : Except Rejection Reply → Output
  | .ok (.rolled lines) => ⟨lines, []⟩
  | .ok _ => .empty
  | .error rejection =>
      .ofError ("Invalid dice expression: " ++ rejection.input)

/-- What the program writes when a line cannot be read. -/
def unreadable : Output :=
  .ofError "unable to read input: stream did not contain valid UTF-8"

/-- The code that the program ends with. Lines that cannot be rolled or
read are reported, and are no failure of the program. -/
def exitCode : UInt32 := 0

/-- What is seen of a run that has ended. -/
structure Ending where
  code : UInt32
  stdout : String
  stderr : String
deriving DecidableEq, Repr

/-- What is seen of a run with some output. -/
def Output.ending (output : Output) : Ending where
  code := exitCode
  stdout := textOf output.stdout
  stderr := textOf output.stderr

-- ================================================================= runs

variable {σ : Type} [WordSource σ]

/-- Hands a line to a session: what is written, and the session behind
the line. -/
def handle (session : Session σ) (line : String) : Output × Session σ :=
  let (answer, session) := session.take line
  (outputOf answer, session)

/-- What the program writes to the lines of its arguments. -/
def runArguments : Session σ → List String → Output
  | _, [] => .empty
  | session, line :: lines =>
      let (output, session) := handle session line
      output.append (runArguments session lines)

/-- What the program writes to the lines of standard input, up to the
first missing one. -/
def runLines : Session σ → List (Option String) → Output
  | _, [] => .empty
  | _, none :: _ => unreadable
  | session, some line :: lines =>
      let (output, session) := handle session line
      output.append (runLines session lines)

/-- The configuration of a run: the file that the arguments name, or
else the one that the environment names. -/
def configOf (arguments : Arguments) (named : Option String)
    (file : String → Config.File) : Config :=
  match arguments.config.or named with
  | none => Config.load .absent
  | some path => Config.load (file path)

/-- The session of a run: seeded as the configuration says, or else with
a given state. -/
def sessionOf (config : Config) (unseeded : Xoshiro) : Session Xoshiro :=
  let source :=
    match config.seed with
    | some seed => Xoshiro.ofSeed seed
    | none => unseeded
  .new source config.showNotation

/-- A run of the program on its arguments, the configuration path of its
environment, the files behind paths, its standard input and the state
for want of a seed. -/
def run (arguments : List String) (named : Option String)
    (file : String → Config.File) (stdin : ByteArray)
    (unseeded : Xoshiro) : Output :=
  let arguments := Arguments.ofList arguments
  let session := sessionOf (configOf arguments named file) unseeded
  if arguments.lines.isEmpty then runLines session (linesOf stdin)
  else runArguments session arguments.lines

-- ============================================================= readings

/-- Standard input as far as it has come in. -/
structure Reading (σ : Type) where
  session : Session σ
  /-- The bytes of the line that has begun, the last one first. -/
  begun : List UInt8

namespace Reading

/-- A reading of which nothing has come in. -/
def new (session : Session σ) : Reading σ := ⟨session, []⟩

/-- Hands the line of some bytes to a session. A line that cannot be
read ends the reading. -/
def endLine (session : Session σ) (line : List UInt8) :
    Output × Option (Reading σ) :=
  match decode line with
  | none => (unreadable, none)
  | some text =>
      let (output, session) := handle session text
      (output, some (new session))

/-- Takes a byte. -/
def take (reading : Reading σ) (byte : UInt8) :
    Output × Option (Reading σ) :=
  if byte = 10 then endLine reading.session (dropReturn reading.begun.reverse)
  else (.empty, some { reading with begun := byte :: reading.begun })

/-- Takes the end of standard input. A line that has begun ends there. -/
def finish (reading : Reading σ) : Output × Option (Reading σ) :=
  if reading.begun.isEmpty then (.empty, none)
  else endLine reading.session reading.begun.reverse

/-- What is written to bytes that come in one after another, and to the
end behind them. -/
def run : Reading σ → List UInt8 → Output
  | reading, [] => reading.finish.1
  | reading, byte :: bytes =>
      match reading.take byte with
      | (output, none) => output
      | (output, some next) => output.append (next.run bytes)

end Reading

end Terminal

end DiceNotation
