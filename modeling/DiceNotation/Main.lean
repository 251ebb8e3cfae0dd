/-
The terminal program as a command. Standard input is taken as it comes,
so that a person at a terminal is answered line by line; what is done
with each byte, and at the end, is for the reading to say.
-/
import DiceNotation.Random.Entropy
import DiceNotation.Terminal

namespace DiceNotation.Terminal

/-- The variable that names a configuration file. -/
def configVariable : String := "JDICE_CONFIG"

/-- Reads a configuration file as far as it can be read. -/
def readConfig (path : String) : IO Config.File := do
  try
    return .content (← IO.FS.readBinFile path)
  catch _ =>
    return .unreadable

/-- Writes output at once. -/
def Output.write (output : Output) : IO Unit := do
  unless output.stdout.isEmpty do
    let stdout ← IO.getStdout
    stdout.putStr (textOf output.stdout)
    stdout.flush
  (← IO.getStderr).putStr (textOf output.stderr)

/-- Shows the prompt to a person. -/
def showPrompt (interactive : Bool) (prompt : String) : IO Unit := do
  if interactive then
    let stdout ← IO.getStdout
    stdout.putStr prompt
    stdout.flush

/-- Takes standard input byte by byte, up to its end or the first line
that cannot be read. The prompt is shown again behind each line. -/
partial def serve (reading : Reading Xoshiro) (prompt : IO Unit) :
    IO Unit := do
  let chunk ← (← IO.getStdin).read 1
  match chunk.toList with
  | [] =>
      let (output, next) := reading.finish
      output.write
      if next.isSome then prompt
  | byte :: _ =>
      let (output, next) := reading.take byte
      output.write
      if let some next := next then
        if next.begun.isEmpty then prompt
        serve next prompt

end DiceNotation.Terminal

open DiceNotation DiceNotation.Terminal in
/-- The terminal program. -/
def main (arguments : List String) : IO UInt32 := do
  let arguments := Arguments.ofList arguments
  let named ← IO.getEnv configVariable
  let file ←
    match arguments.config.or named with
    | none => pure Config.File.absent
    | some path => readConfig path
  let config := configOf arguments named fun _ => file
  let session := sessionOf config (← Xoshiro.unpredictable)
  if arguments.lines.isEmpty then
    let prompt := showPrompt (← (← IO.getStdin).isTty) config.prompt
    prompt
    serve (.new session) prompt
  else
    (runArguments session arguments.lines).write
  return exitCode
