/-
Sampling: a die is rolled many times, each time with a source of its
own, and two histograms are saved, one of the faces of all single dice
and one of the totals. The arguments are the die and the number of
trials; a number that cannot be read means one trial.

What can go wrong is settled in this order: the arguments, the widths of
the two histograms, and at the end the files, of which the faces are
saved first.
-/
import DiceNotation.Die.Bounds
import DiceNotation.Histogram
import DiceNotation.Roll

namespace DiceNotation.Sampler

-- ============================================================== failure

/-- Why sampling came to nothing, or to one file alone. -/
inductive Failure where
  /-- No die was given. -/
  | usage
  | rejected (rejection : Rejection)
  /-- A histogram between two bounds would have too many cells. -/
  | tooWide (lowest highest : Int64)
  /-- A file cannot be written, for a reason the system gives. -/
  | unwritable (file reason : String)

/-- The sentence that tells of a failure. -/
def Failure.message : Failure → String
  | .usage => "usage: roll-cmd <dice> [trials]"
  | .rejected rejection => rejection.message
  | .tooWide lowest highest =>
      "range " ++ String.ofList (Decimal.ofInt lowest.toInt) ++ "..="
        ++ String.ofList (Decimal.ofInt highest.toInt)
        ++ " is too wide to sample"
  | .unwritable file reason =>
      "unable to write " ++ file ++ ": " ++ reason

/-- The exit code of a failure. -/
def Failure.code : Failure → UInt32
  | .unwritable _ _ => 1
  | _ => 2

-- ============================================================ arguments

/-- The number that a text is: decimal digits, before which a plus may
stand, and in the range of a 32-bit word. -/
def trials? (text : List Char) : Option UInt32 :=
  let digits :=
    match text with
    | '+' :: digits => digits
    | _ => text
  match Decimal.readWord digits with
  | .ok (n, []) => some n
  | _ => none

/-- The number of trials that the arguments behind the die ask for. -/
def trialCount : List String → Nat
  | [] => 1
  | text :: _ => ((trials? text.toList).getD 1).toNat

-- ============================================================= sampling

/-- The two histograms of a die. -/
structure Tally where
  faces : Histogram
  totals : Histogram

/-- The histograms of a die before any trial. -/
def Tally.start (die : Die) : Except Failure Tally :=
  match Histogram.ofRange? die.lowest die.highest with
  | none => .error (.tooWide die.lowest die.highest)
  | some totals =>
      let largest := Word.widen die.largestSides
      match Histogram.ofRange? 1 largest with
      | none => .error (.tooWide 1 largest)
      | some faces => .ok ⟨faces, totals⟩

/-- Counts an outcome: its total and each of its faces. -/
def Tally.add (tally : Tally) (outcome : Outcome) : Tally where
  faces := tally.faces.addAll (outcome.faces.map Word.widen)
  totals := tally.totals.add outcome.total

variable {σ : Type} [WordSource σ]

/-- Rolls a die so many times, each trial with its own source, from the
trial of a given number on. -/
def Tally.sample (die : Die) (sources : Nat → σ) :
    Nat → Nat → Tally → Tally
  | 0, _, tally => tally
  | n + 1, trial, tally =>
      sample die sources n (trial + 1)
        (tally.add (die.roll (sources trial)).1)

/-- The histograms that arguments ask for. -/
def tally (arguments : List String) (sources : Nat → σ) :
    Except Failure Tally :=
  match arguments with
  | [] => .error .usage
  | dice :: rest =>
      match Die.parse dice with
      | .error rejection => .error (.rejected rejection)
      | .ok die =>
          match Tally.start die with
          | .error failure => .error failure
          | .ok start =>
              .ok (Tally.sample die sources (trialCount rest) 0 start)

-- ================================================================ files

/-- The file of the faces. -/
def facesFile : String := "throws.npy"

/-- The file of the totals. -/
def totalsFile : String := "rolls.npy"

/-- A run of the sampler: the files it saved, in order, and what went
wrong, if anything did. -/
structure Run where
  files : List (String × Histogram)
  failure : Option Failure

/-- Why a file cannot be written where a directory has its name. -/
def isDirectory : String := "Is a directory (os error 21)"

/-- Saves files in order, up to the first one that there is a reason not
to write. -/
def save (obstacle : String → Option String) :
    List (String × Histogram) → Run
  | [] => ⟨[], none⟩
  | (name, histogram) :: rest =>
      match obstacle name with
      | some reason => ⟨[], some (.unwritable name reason)⟩
      | none =>
          let run := save obstacle rest
          { run with files := (name, histogram) :: run.files }

/-- Runs the sampler, where something may stand in the way of a file. -/
def run (arguments : List String) (sources : Nat → σ)
    (obstacle : String → Option String) : Run :=
  match tally arguments sources with
  | .error failure => ⟨[], some failure⟩
  | .ok tally =>
      save obstacle [(facesFile, tally.faces), (totalsFile, tally.totals)]

/-- The exit code of a run. -/
def Run.code (run : Run) : UInt32 :=
  match run.failure with
  | none => 0
  | some failure => failure.code

/-- What a run writes to standard error. -/
def Run.stderr (run : Run) : String :=
  match run.failure with
  | none => ""
  | some failure =>
      Record.diagnostic "roll_cmd" failure.message ++ "\n"

end DiceNotation.Sampler
