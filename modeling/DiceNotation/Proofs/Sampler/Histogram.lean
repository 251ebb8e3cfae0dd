/-
What a histogram holds. A histogram of the values between two bounds has
a first cell with the lower bound and then a cell for each value, with
the number of times it was counted; `Holds` says so of a list of values
in which all were counted.

Counting is one step that keeps this (`Holds.add`), and counting many
values is a run of such steps (`Holds.addAll`). Two things could go
wrong in a step, and do not as long as values keep to the bounds. The
cell of a value is found by a difference in 64 bits, which must not leave
the range; and the cell must not be the first one, which would move all
others. Beside the cells each step is therefore said to stay in range
(`StepFits`).

No value is lost: the cells behind the first sum up to the number of
values (`Holds.sum_cells`), since a value between the bounds belongs to
exactly one cell.
-/
import DiceNotation.Histogram
import DiceNotation.Proofs.Word
import Mathlib.Algebra.BigOperators.Group.List.Basic

namespace DiceNotation.Histogram

open Word (Fits)

-- ============================================================== the width

/-- How many cells a histogram between two bounds has. -/
def cellCount (lowest highest : Int64) : Int :=
  highest.toInt - lowest.toInt + 2

/-- A histogram is refused if it would have no cell or too many. -/
theorem ofRange?_eq_none_iff {lowest highest : Int64} :
    ofRange? lowest highest = none
      ↔ ¬ (0 < cellCount lowest highest
        ∧ cellCount lowest highest ≤ maxCells) := by
  unfold ofRange? cellCount
  simp

-- =============================================================== contents

/-- A value between two bounds. -/
structure Between (lowest highest value : Int64) : Prop where
  low : lowest.toInt ≤ value.toInt
  high : value.toInt ≤ highest.toInt

/-- A value between two bounds lies some way above the lower one. -/
theorem Between.exists_offset {lowest highest value : Int64}
    (h : Between lowest highest value) :
    ∃ offset : Nat, value.toInt = lowest.toInt + offset
      ∧ (offset : Int) ≤ highest.toInt - lowest.toInt := by
  obtain ⟨hlow, hhigh⟩ := h
  exact ⟨(value.toInt - lowest.toInt).toNat, by omega, by omega⟩

/-- How often a list has the value that lies so far above another. -/
def timesAbove (lowest : Int64) (offset : Nat) (values : List Int64) :
    Nat :=
  values.countP fun value => value.toInt = lowest.toInt + offset

@[simp] theorem timesAbove_nil (lowest : Int64) (offset : Nat) :
    timesAbove lowest offset [] = 0 := rfl

theorem timesAbove_concat (lowest : Int64) (offset : Nat)
    (values : List Int64) (value : Int64) :
    timesAbove lowest offset (values ++ [value])
      = timesAbove lowest offset values
        + if value.toInt = lowest.toInt + offset then 1 else 0 := by
  simp [timesAbove, List.countP_append, List.countP_cons]

theorem timesAbove_le_length (lowest : Int64) (offset : Nat)
    (values : List Int64) :
    timesAbove lowest offset values ≤ values.length :=
  List.countP_le_length

/-- A histogram between two bounds in which values were counted. -/
structure Holds (histogram : Histogram) (lowest highest : Int64)
    (values : List Int64) : Prop where
  size : (histogram.cells.size : Int) = cellCount lowest highest
  first : histogram.cells[0]? = some lowest
  cell : ∀ offset : Nat, (offset : Int) ≤ highest.toInt - lowest.toInt →
    ∃ count, histogram.cells[offset + 1]? = some count
      ∧ count.toInt = timesAbove lowest offset values

theorem lowest_eq_of_first {histogram : Histogram} {first : Int64}
    (h : histogram.cells[0]? = some first) : histogram.lowest = first := by
  unfold lowest
  rw [Array.getD_eq_getD_getElem?, h, Option.getD_some]

theorem Holds.lowest_eq {histogram : Histogram} {lowest highest : Int64}
    {values : List Int64} (h : histogram.Holds lowest highest values) :
    histogram.lowest = lowest :=
  lowest_eq_of_first h.first

/-- A new histogram has counted nothing. -/
theorem holds_of_ofRange? {lowest highest : Int64} {histogram : Histogram}
    (h : ofRange? lowest highest = some histogram) :
    histogram.Holds lowest highest [] := by
  unfold ofRange? at h
  simp only at h
  split at h
  case isFalse => cases h
  case isTrue hsize =>
    cases h
    obtain ⟨hpos, -⟩ := hsize
    refine ⟨?_, ?_, ?_⟩
    · rw [Array.size_setIfInBounds, Array.size_replicate]
      unfold cellCount
      omega
    · rw [Array.getElem?_setIfInBounds, if_pos rfl, Array.size_replicate,
        if_pos (by omega)]
    · intro offset hoffset
      refine ⟨0, ?_, rfl⟩
      rw [Array.getElem?_setIfInBounds, if_neg (by omega),
        Array.getElem?_replicate, if_pos (by omega)]

-- =============================================================== counting

/-- The sums of counting a value, those of its cell's place and that of
the cell itself, stay in range. -/
structure StepFits (histogram : Histogram) (value : Int64) : Prop where
  above : Fits (value.toInt - histogram.lowest.toInt)
  place : Fits ((value - histogram.lowest).toInt + 1)
  count : ∀ count,
    histogram.cells[(histogram.slot value).toInt.toNat]? = some count →
    Fits (count.toInt + 1)

/-- They do for each of many values, counted one after the other. -/
def StepsFit : Histogram → List Int64 → Prop
  | _, [] => True
  | histogram, value :: values =>
      histogram.StepFits value ∧ (histogram.add value).StepsFit values

/-- The place of a value between the bounds, as far behind the first cell
as the value lies above the lower bound, and one more. -/
theorem Holds.slot_toInt {histogram : Histogram}
    {lowest highest value : Int64} {values : List Int64}
    (h : histogram.Holds lowest highest values)
    (hwidth : cellCount lowest highest ≤ maxCells)
    (hvalue : Between lowest highest value) :
    Fits (value.toInt - lowest.toInt)
      ∧ Fits ((value - lowest).toInt + 1)
      ∧ (histogram.slot value).toInt = value.toInt - lowest.toInt + 1 := by
  obtain ⟨hlow, hhigh⟩ := hvalue
  unfold cellCount maxCells at hwidth
  have habove : Fits (value.toInt - lowest.toInt) := by
    rw [Word.fits_iff]
    omega
  have hsub := Word.sub_toInt habove
  have hplace : Fits ((value - lowest).toInt + 1) := by
    rw [hsub, Word.fits_iff]
    omega
  refine ⟨habove, hplace, ?_⟩
  unfold slot
  rw [h.lowest_eq, Word.add_toInt (b := 1) hplace, hsub]
  rfl

/-- Counting a value between the bounds stays in range and counts it. -/
theorem Holds.add {histogram : Histogram} {lowest highest value : Int64}
    {values : List Int64} (h : histogram.Holds lowest highest values)
    (hwidth : cellCount lowest highest ≤ maxCells)
    (hvalue : Between lowest highest value)
    (hroom : (values ++ [value]).length < 2 ^ 63) :
    histogram.StepFits value
      ∧ (histogram.add value).Holds lowest highest (values ++ [value]) := by
  obtain ⟨habove, hplace, hslot⟩ := h.slot_toInt hwidth hvalue
  obtain ⟨place, hvalue, hinside⟩ := hvalue.exists_offset
  have hindex : (histogram.slot value).toInt.toNat = place + 1 := by
    omega
  -- a cell counts no more values than there are, which leaves room
  have hcounted : ∀ offset count,
      count = (timesAbove lowest offset values : Int) →
      Fits (count + 1) := by
    intro offset count hcount
    have hle := timesAbove_le_length lowest offset values
    rw [List.length_append, List.length_singleton] at hroom
    rw [Word.fits_iff]
    omega
  have hfits : histogram.StepFits value := by
    refine ⟨?_, ?_, ?_⟩
    · rw [h.lowest_eq]
      exact habove
    · rw [h.lowest_eq]
      exact hplace
    · intro count hcell
      obtain ⟨found, hfound, hcount⟩ := h.cell place hinside
      rw [hindex, hfound] at hcell
      cases hcell
      exact hcounted place _ hcount
  refine ⟨hfits, ?_⟩
  have hadd : histogram.add value
      = ⟨histogram.cells.modify (place + 1) (· + 1)⟩ := by
    have hpos : 0 ≤ histogram.slot value := by
      rw [Int64.le_iff_toInt_le, Int64.toInt_zero]
      omega
    unfold Histogram.add
    simp only [if_pos hpos, hindex]
  rw [hadd]
  -- the place is behind the first cell, so that only a later one changes
  refine ⟨?_, ?_, ?_⟩
  · rw [Array.size_modify]
    exact h.size
  · rw [Array.getElem?_modify, if_neg (by omega)]
    exact h.first
  · intro offset hoffset
    obtain ⟨count, hcell, hcount⟩ := h.cell offset hoffset
    rw [Array.getElem?_modify, hcell]
    by_cases hsame : place = offset
    · subst hsame
      refine ⟨count + 1, by simp, ?_⟩
      rw [Word.add_toInt (b := 1) (hcounted place _ hcount),
        timesAbove_concat, if_pos hvalue, hcount]
      rfl
    · refine ⟨count, by simp [hsame], ?_⟩
      rw [timesAbove_concat, if_neg (by omega), hcount]
      rfl

/-- Counting values between the bounds stays in range and counts them
all. -/
theorem Holds.addAll {histogram : Histogram} {lowest highest : Int64}
    {values more : List Int64} (h : histogram.Holds lowest highest values)
    (hwidth : cellCount lowest highest ≤ maxCells)
    (hmore : ∀ value ∈ more, Between lowest highest value)
    (hroom : (values ++ more).length < 2 ^ 63) :
    histogram.StepsFit more
      ∧ (histogram.addAll more).Holds lowest highest (values ++ more) := by
  induction more generalizing histogram values with
  | nil =>
      rw [List.append_nil]
      exact ⟨trivial, h⟩
  | cons value more ih =>
      obtain ⟨hvalue, hmore⟩ := List.forall_mem_cons.1 hmore
      rw [List.append_cons] at hroom ⊢
      have hfirst : (values ++ [value]).length < 2 ^ 63 := by
        rw [List.length_append] at hroom
        omega
      obtain ⟨hstep, hadded⟩ := h.add hwidth hvalue hfirst
      obtain ⟨hsteps, hall⟩ := ih hadded hmore hroom
      exact ⟨⟨hstep, hsteps⟩, hall⟩

-- ============================================================ nothing lost

/-- A value between the bounds is one of those that lie so far above the
lower bound, and only one. -/
theorem sum_timesAbove {lowest highest : Int64} {width : Nat}
    {values : List Int64}
    (hwidth : (width : Int) = highest.toInt - lowest.toInt + 1)
    (h : ∀ value ∈ values, Between lowest highest value) :
    ((List.range width).map fun offset =>
      (timesAbove lowest offset values : Int)).sum = values.length := by
  induction values with
  | nil => simp
  | cons value values ih =>
      obtain ⟨hvalue, hvalues⟩ := List.forall_mem_cons.1 h
      obtain ⟨place, hplace, hinside⟩ := hvalue.exists_offset
      -- one more value adds one at its own place, and nothing elsewhere
      have hcons : ∀ offset : Nat,
          (timesAbove lowest offset (value :: values) : Int)
            = timesAbove lowest offset values
              + if offset = place then 1 else 0 := by
        intro offset
        have hiff : (value.toInt = lowest.toInt + offset)
            ↔ offset = place := by omega
        simp [timesAbove, List.countP_cons, hiff]
      have hone : ((List.range width).map fun offset =>
          if offset = place then (1 : Int) else 0).sum = 1 := by
        rw [List.sum_map_ite_eq, List.count_range, if_pos (by omega)]
        simp
      simp only [hcons]
      rw [List.sum_map_add, ih hvalues, hone]
      simp

/-- The cells behind the first one. -/
theorem Holds.map_cells {histogram : Histogram} {lowest highest : Int64}
    {values : List Int64} (h : histogram.Holds lowest highest values)
    {width : Nat}
    (hwidth : (width : Int) = highest.toInt - lowest.toInt + 1) :
    (histogram.cells.toList.drop 1).map Int64.toInt
      = (List.range width).map fun offset =>
          (timesAbove lowest offset values : Int) := by
  have hsize : histogram.cells.size = width + 1 := by
    have := h.size
    unfold cellCount at this
    omega
  apply List.ext_getElem?
  intro offset
  rw [List.getElem?_map, List.getElem?_map, List.getElem?_drop,
    Array.getElem?_toList, Nat.add_comm 1]
  by_cases hoffset : offset < width
  · obtain ⟨count, hcell, hcount⟩ := h.cell offset (by omega)
    rw [hcell, List.getElem?_range hoffset, Option.map_some,
      Option.map_some, hcount]
  · rw [Array.getElem?_eq_none (by omega),
      List.getElem?_eq_none (by simpa using hoffset)]
    rfl

/-- No value between the bounds is lost: the cells behind the first one
sum up to the number of values. -/
theorem Holds.sum_cells {histogram : Histogram} {lowest highest : Int64}
    {values : List Int64} (h : histogram.Holds lowest highest values)
    (hordered : lowest.toInt ≤ highest.toInt)
    (hvalues : ∀ value ∈ values, Between lowest highest value) :
    ((histogram.cells.toList.drop 1).map Int64.toInt).sum
      = values.length := by
  obtain ⟨width, hwidth⟩ : ∃ width : Nat,
      (width : Int) = highest.toInt - lowest.toInt + 1 :=
    ⟨(highest.toInt - lowest.toInt + 1).toNat, by omega⟩
  rw [h.map_cells hwidth, sum_timesAbove hwidth hvalues]

end DiceNotation.Histogram
