/-
The sampler as a command: it fills the histograms from unpredictable
sources and saves them in the current directory.
-/
import DiceNotation.Npy
import DiceNotation.Random.Entropy
import DiceNotation.Sampler

namespace DiceNotation.Sampler

/-- The sources of the trials: each is seeded with a word of its own,
one word of an unpredictable state and the number of the trial. A master
generator that fills all 256 bits of each state anew would draw more from
the system; the state of a trial is simpler here, and what is proved of
the sampler is proved of any sources. -/
def sourcesFrom (master : Xoshiro) (trial : Nat) : Xoshiro :=
  Xoshiro.ofSeed (master.next64.1 + UInt64.ofNat trial)

/-- The reason an error of the system gives. -/
def reasonOf : IO.Error → String
  | .inappropriateType _ 21 _ => isDirectory
  | error => toString error

/-- Saves a file, if the system lets it. -/
def saveFile (file : String × Histogram) : IO (Option Failure) := do
  try
    IO.FS.writeBinFile file.1 (Npy.encode file.2.cells)
    return none
  catch reason =>
    return some (.unwritable file.1 (reasonOf reason))

/-- Saves files in order, up to the first one that fails. -/
def saveFiles : List (String × Histogram) → IO (Option Failure)
  | [] => return none
  | file :: files => do
      match ← saveFile file with
      | some failure => return some failure
      | none => saveFiles files

/-- Runs the sampler and gives its exit code. -/
def command (arguments : List String) : IO UInt32 := do
  let master ← Xoshiro.unpredictable
  let planned := run arguments (sourcesFrom master) fun _ => none
  let failure ←
    match planned.failure with
    | some failure => pure (some failure)
    | none => saveFiles planned.files
  let done : Run := { planned with failure }
  (← IO.getStderr).putStr done.stderr
  return done.code

end DiceNotation.Sampler
