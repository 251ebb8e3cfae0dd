/-
Sessions. A session takes lines one by one, rolls them, and keeps every
line it has given out until it is cleared. A line means one of four
things, its turn: nothing, a clear, a rejection, or dice to roll. What it
means does not hang on the session, and all of it is read before anything
is rolled; so a line that is rejected, however late in its text, has
drawn no word and left no trace.

Dice are rolled in a loop of the session's own. Each die in turn takes
its words, and its line and its records are put behind those of the dice
before; the outcome itself is not kept.
-/
import DiceNotation.Random.Xoshiro
import DiceNotation.Roll

namespace DiceNotation

-- =========================================================== the types

/-- What a line means to a session. -/
inductive Turn where
  /-- The line is blank. -/
  | skip
  /-- The line asks to forget what was given out. -/
  | clear
  /-- The line is no dice notation. -/
  | reject (rejection : Rejection)
  /-- The line has dice to roll. -/
  | roll (labeled : LabeledLine)

/-- How far the dice of a line are rolled. -/
structure Rolling (σ : Type) where
  source : σ
  /-- The lines to give out. -/
  lines : Array String
  /-- The records made. -/
  records : Array Record

/-- What a session answers to a line that is not rejected. -/
inductive Reply where
  | skipped
  | cleared
  | rolled (lines : List String)
deriving DecidableEq, Repr

/-- A session: its source of words, whether it shows the notation of
what it rolls, and the lines it has given out. -/
structure Session (σ : Type) where
  source : σ
  showNotation : Bool
  history : List String

namespace Session

/-- The word that clears a session, in either case. -/
def clearWord : List Char := ['c', 'l', 'e', 'a', 'r']

/-- A session that has given out nothing. -/
def new {σ : Type} (source : σ) (showNotation : Bool) : Session σ :=
  ⟨source, showNotation, []⟩

-- =============================================================== turns

/-- What a line means. Blanks around it mean nothing. -/
def turnOf (line : String) : Turn :=
  let trimmed := Text.trim line.toList
  if trimmed.isEmpty then .skip
  else if trimmed.map Char.toLower = clearWord then .clear
  else
    match LabeledLine.parse (String.ofList trimmed) with
    | .error rejection => .reject rejection
    | .ok labeled => .roll labeled

-- ============================================================= rolling

/-- The line of a die and what it showed. -/
def entryLine (showNotation : Bool) (indent : List Char) (die : Die)
    (outcome : Outcome) : String :=
  if showNotation then
    String.ofList (indent ++ die.written
      ++ [' ', ' ', '=', '>', ' ', ' '] ++ outcome.written)
  else String.ofList (indent ++ outcome.written)

variable {σ : Type} [WordSource σ]

/-- Rolls one die and puts its line behind those given out. -/
def rollEntry (showNotation : Bool) (indent : List Char)
    (rolling : Rolling σ) (die : Die) : Rolling σ :=
  let (outcome, source) := die.roll rolling.source
  let line := entryLine showNotation indent die outcome
  { source,
    lines := rolling.lines.push line,
    records := rolling.records ++ (outcome.records die).toArray }

/-- Rolls dice one after the other. -/
def rollEntries (showNotation : Bool) (indent : List Char) :
    List Die → Rolling σ → Rolling σ
  | [], rolling => rolling
  | die :: dice, rolling =>
      rollEntries showNotation indent dice
        (rollEntry showNotation indent rolling die)

/-- Rolls the dice of a line. Its label, if it has one, is given out
first and sets the other lines two blanks in. -/
def rollLabeled (session : Session σ) (labeled : LabeledLine) :
    Rolling σ :=
  match labeled.label with
  | some label =>
      rollEntries session.showNotation [' ', ' '] labeled.dice
        ⟨session.source, #[label], #[]⟩
  | none =>
      rollEntries session.showNotation [] labeled.dice
        ⟨session.source, #[], #[]⟩

-- =============================================================== steps

/-- Takes a turn: the answer, and the session behind it. -/
def apply (session : Session σ) :
    Turn → Except Rejection Reply × Session σ
  | .skip => (.ok .skipped, session)
  | .clear => (.ok .cleared, { session with history := [] })
  | .reject rejection => (.error rejection, session)
  | .roll labeled =>
      let rolling := session.rollLabeled labeled
      let lines := rolling.lines.toList
      (.ok (.rolled lines),
        { session with
          source := rolling.source, history := session.history ++ lines })

theorem apply_roll (session : Session σ) (labeled : LabeledLine) :
    session.apply (.roll labeled)
      = (.ok (.rolled (session.rollLabeled labeled).lines.toList),
        ⟨(session.rollLabeled labeled).source, session.showNotation,
          session.history
            ++ (session.rollLabeled labeled).lines.toList⟩) := rfl

/-- Takes a line. -/
def take (session : Session σ) (line : String) :
    Except Rejection Reply × Session σ :=
  session.apply (turnOf line)

-- ============================================================= records

/-- The record of fixing the seed of a session. -/
def seedRecord (seed : UInt64) : Record :=
  ⟨.info, "rolling with fixed seed "
    ++ String.ofList (Decimal.ofNat seed.toNat)⟩

/-- The records of taking a line. -/
def records (session : Session σ) (line : String) : List Record :=
  let trimmed := String.ofList (Text.trim line.toList)
  match turnOf line with
  | .skip => []
  | .clear => [⟨.info, "history cleared"⟩]
  | .reject rejection => [rejection.record]
  | .roll labeled =>
      LabeledLine.record trimmed
        :: (session.rollLabeled labeled).records.toList
        ++ [⟨.info, "rolled " ++ trimmed⟩]

end Session

end DiceNotation
