/-
Words of fixed width and the ways into them. A number read from a text
is an integer of any size; it becomes a word only when it is in range,
and out of range it is refused, never cut down. Sums and products of
bounds are the one exception: they stop at the ends of the 64-bit range.

Counts of dice and of sides are positive words, so that no later code
has to ask whether a die has a face.
-/

namespace DiceNotation

-- ====================================================== positive words

/-- A 32-bit word above zero. -/
structure Positive where
  val : UInt32
  pos : 0 < val
deriving DecidableEq

namespace Positive

/-- The positive word one. -/
def one : Positive := ⟨1, by decide⟩

/-- A word as a positive word, unless it is zero. -/
def ofWord? (n : UInt32) : Option Positive :=
  if h : 0 < n then some ⟨n, h⟩ else none

/-- A word as a positive word no larger than a limit. -/
def atMost? (limit n : UInt32) : Option Positive :=
  if n ≤ limit then ofWord? n else none

/-- The number a positive word stands for. -/
def toNat (n : Positive) : Nat := n.val.toNat

/-- A positive word stands for a positive number. -/
theorem toNat_pos (n : Positive) : 0 < n.toNat :=
  UInt32.lt_iff_toNat_lt.1 n.pos

end Positive

-- =================================================== exact conversions

namespace Word

/-- A natural number as an unsigned 32-bit word, if it is in range. -/
def unsigned32? (n : Int) : Option UInt32 :=
  if 0 ≤ n ∧ n < UInt32.size then some (UInt32.ofNat n.toNat) else none

/-- An integer as a signed 32-bit word, if it is in range. -/
def signed32? (n : Int) : Option Int32 :=
  if Int32.minValue.toInt ≤ n ∧ n ≤ Int32.maxValue.toInt then
    some (Int32.ofInt n)
  else none

/-- An integer as a signed 64-bit word, if it is in range. -/
def signed64? (n : Int) : Option Int64 :=
  if Int64.minValue.toInt ≤ n ∧ n ≤ Int64.maxValue.toInt then
    some (Int64.ofInt n)
  else none

/-- A 32-bit word as a signed 64-bit word of the same value. -/
def widen (n : UInt32) : Int64 :=
  Int64.ofNat n.toNat

-- ============================================== saturating arithmetic

/-- The sum of two 64-bit words, or the end of the range it passes. -/
def addSaturating (a b : Int64) : Int64 :=
  Int64.ofIntClamp (a.toInt + b.toInt)

/-- The product of two 32-bit words as a signed 64-bit word, or the end
of the range it passes. -/
def mulSaturating (a b : UInt32) : Int64 :=
  Int64.ofIntClamp (a.toNat * b.toNat)

end Word

end DiceNotation
