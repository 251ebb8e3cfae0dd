/-
Histograms, in the layout in which they are saved: one array, whose
first cell holds the lowest value and whose further cells count the
values from the lowest one up. A value is counted in the cell as far
behind the lowest value's as the value lies above it; a value that no
cell belongs to is not counted.

The first cell is itself the one before that of the lowest value.
Counting the value right below the lowest therefore adds one to the
first cell, and so moves every cell to the value above.
-/
import DiceNotation.Word

namespace DiceNotation

/-- The cells of a histogram. -/
structure Histogram where
  cells : Array Int64
deriving DecidableEq

namespace Histogram

/-- The largest number of cells, the 24th power of two. -/
def maxCells : Int := 16777216

/-- A histogram of the values between two bounds that counts nothing
yet, unless it has too many cells. Bounds that cross by two leave no cell
for the lowest value, and making such a histogram is a fault that ends
the program; here there is none either, as for bounds that cross by more.
The bounds of a die do not cross. -/
def ofRange? (lowest highest : Int64) : Option Histogram :=
  let size := highest.toInt - lowest.toInt + 2
  if 0 < size ∧ size ≤ maxCells then
    some ⟨(Array.replicate size.toNat 0).setIfInBounds 0 lowest⟩
  else none

/-- The lowest value, which the first cell holds. -/
def lowest (histogram : Histogram) : Int64 :=
  histogram.cells.getD 0 0

/-- The cell of a value, if cells went on in both directions. -/
def slot (histogram : Histogram) (value : Int64) : Int64 :=
  value - histogram.lowest + 1

/-- Counts a value. -/
def add (histogram : Histogram) (value : Int64) : Histogram :=
  let slot := histogram.slot value
  if 0 ≤ slot then
    ⟨histogram.cells.modify slot.toInt.toNat (· + 1)⟩
  else histogram

/-- Counts values one after the other. -/
def addAll (histogram : Histogram) (values : List Int64) : Histogram :=
  values.foldl add histogram

end Histogram

end DiceNotation
