import DiceNotation.Main
import DiceNotation.Proofs.Die.Saturation
import DiceNotation.Proofs.Json.RoundTrip
import DiceNotation.Proofs.Notation.Cut
import DiceNotation.Proofs.Notation.Single
import DiceNotation.Proofs.Random.Cycle
import DiceNotation.Proofs.Roll.Clamped
import DiceNotation.Proofs.Roll.Nesting
import DiceNotation.Proofs.Sampler.Drift
import DiceNotation.Proofs.Sampler.Tally
import DiceNotation.Proofs.Session.Line
import DiceNotation.Proofs.Terminal.Run
import DiceNotation.Proofs.Walk
import DiceNotation.Random.WordList
import DiceNotation.Sampler.Command
import DiceNotation.Proofs.Outcome.Text
import DiceNotation.Proofs.Notation.Repeat
import DiceNotation.Proofs.Random.Taken
import DiceNotation.Proofs.Roll.Ending
import DiceNotation.Proofs.Session.Notation
import DiceNotation.Proofs.Notation.Number
import DiceNotation.Proofs.Terminal.Arguments
import DiceNotation.Proofs.Toml.Literal
import DiceNotation.Proofs.Toml.Entry
import DiceNotation.Proofs.Config.Lines
import DiceNotation.Proofs.Terminal.Reading
