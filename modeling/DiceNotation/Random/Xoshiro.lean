/-
The generator xoshiro256++, and SplitMix64, which fills its state from a
seed of one word. The state is four 64-bit words; a step gives one
64-bit word, of which a source of 32-bit words passes on the upper half.

A state is one of 2^256, and the states that follow it return to one
already met after at most that many steps, so that number of words shows
all that will ever come.
-/
import DiceNotation.Random.WordSource

namespace DiceNotation

-- ========================================================== SplitMix64

namespace SplitMix

/-- The step between two states. -/
def increment : UInt64 := 0x9e3779b97f4a7c15

/-- The output at a state. -/
def output (state : UInt64) : UInt64 :=
  let z := (state ^^^ (state >>> 30)) * 0xbf58476d1ce4e5b9
  let z := (z ^^^ (z >>> 27)) * 0x94d049bb133111eb
  z ^^^ (z >>> 31)

/-- The output of so many steps from a seed, the first step being
one. -/
def nth (seed : UInt64) (n : UInt64) : UInt64 :=
  output (seed + n * increment)

end SplitMix

-- ========================================================= xoshiro256++

/-- The four words of a state. -/
structure Xoshiro where
  s0 : UInt64
  s1 : UInt64
  s2 : UInt64
  s3 : UInt64
deriving DecidableEq

namespace Xoshiro

/-- The state that a seed stands for: the first four outputs of
SplitMix64. -/
def ofSeed (seed : UInt64) : Xoshiro :=
  ⟨SplitMix.nth seed 1, SplitMix.nth seed 2, SplitMix.nth seed 3,
    SplitMix.nth seed 4⟩

/-- A word turned to the left. -/
def rotateLeft (word : UInt64) (turns : UInt64) : UInt64 :=
  (word <<< turns) ||| (word >>> (64 - turns))

/-- Gives a 64-bit word and the next state. -/
def next64 (state : Xoshiro) : UInt64 × Xoshiro :=
  let word := rotateLeft (state.s0 + state.s3) 23 + state.s0
  let shifted := state.s1 <<< 17
  let s2 := state.s2 ^^^ state.s0
  let s3 := state.s3 ^^^ state.s1
  let s1 := state.s1 ^^^ s2
  let s0 := state.s0 ^^^ s3
  (word, ⟨s0, s1, s2 ^^^ shifted, rotateLeft s3 45⟩)

/-- Gives the upper half of a 64-bit word, and the next state. -/
def next (state : Xoshiro) : UInt32 × Xoshiro :=
  let (word, state) := state.next64
  ((word >>> 32).toUInt32, state)

/-- The number of states. -/
def stateCount : Nat := Nat.pow 2 256

instance : WordSource Xoshiro where
  next := next
  patience _ := stateCount

end Xoshiro

end DiceNotation
