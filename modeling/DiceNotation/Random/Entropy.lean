/-
States for want of a seed: four words of random bytes.
-/
import DiceNotation.Random.Xoshiro

namespace DiceNotation.Xoshiro

/-- The number that bytes are, the lowest first. -/
def ofLowBytes : List UInt8 → Nat
  | [] => 0
  | byte :: bytes => byte.toNat + 256 * ofLowBytes bytes

/-- The word of eight bytes from some byte on. -/
def wordAt (bytes : List UInt8) (start : Nat) : UInt64 :=
  UInt64.ofNat (ofLowBytes ((bytes.drop start).take 8))

/-- The state of 32 bytes. -/
def ofBytes (bytes : List UInt8) : Xoshiro :=
  ⟨wordAt bytes 0, wordAt bytes 8, wordAt bytes 16, wordAt bytes 24⟩

/-- A state nobody can foresee. -/
def unpredictable : IO Xoshiro := do
  let bytes ← IO.getRandomBytes 32
  return ofBytes bytes.toList

end DiceNotation.Xoshiro
