/-
Faces from words. A die with `s` sides takes a word `v` and looks at the
product of the two as a 64-bit word. Its upper half is below `s` and
gives the face; its lower half decides whether the word is used at all.

Each face owns a stretch of products of the same length, 2^32, but the
products of words fall on it unevenly. Of the lower halves only those up
to a bound are used, chosen so that the bound plus one is the largest
multiple of `s` that 2^32 holds: every face is then given by the same
number of words. A word beyond the bound is passed over for the next.
-/
import DiceNotation.Random.WordSource
import DiceNotation.Word

namespace DiceNotation.Face

-- ============================================================ one word

/-- The product of a word and a number of sides. -/
def product (sides word : UInt32) : UInt64 :=
  word.toUInt64 * sides.toUInt64

/-- The largest lower half that is used. -/
def bound (sides : UInt32) : UInt32 :=
  0xffffffff - (0 - sides) % sides

/-- Whether a die with so many sides uses a word. -/
def accepts (sides word : UInt32) : Bool :=
  (product sides word).toUInt32 ≤ bound sides

/-- The face that a word gives. -/
def ofWord (sides word : UInt32) : UInt32 :=
  (product sides word >>> 32).toUInt32 + 1

-- ============================================================= drawing

variable {σ : Type} [WordSource σ]

/-- Draws a face with the first word that is used, passing over so many
words at most. -/
def drawWithin (sides : UInt32) : Nat → σ → UInt32 × σ
  | 0, source =>
      let (word, source) := WordSource.next source
      (ofWord sides word, source)
  | patience + 1, source =>
      let (word, next) := WordSource.next source
      if accepts sides word then (ofWord sides word, next)
      else drawWithin sides patience next

/-- Draws a face with the first word that is used. -/
def draw (sides : Positive) (source : σ) : UInt32 × σ :=
  drawWithin sides.val (WordSource.patience source) source

/-- Draws a number of faces behind those already drawn, which stand in
reverse. -/
def drawOnto (sides : Positive) :
    Nat → σ → List UInt32 → List UInt32 × σ
  | 0, source, drawn => (drawn.reverse, source)
  | n + 1, source, drawn =>
      let (face, source) := draw sides source
      drawOnto sides n source (face :: drawn)

/-- Draws a number of faces, in order. -/
def drawMany (sides : Positive) (n : Nat) (source : σ) :
    List UInt32 × σ :=
  drawOnto sides n source []

end DiceNotation.Face
