/-
What any values at all do to a histogram, those between its bounds and
those outside.

# One value

A value is counted in the cell at the wrapped difference to the first
cell, so that one cell changes or none (`getElem?_add`). To the cells
behind the first belong the values between the bounds, and no other
value gets round to them. To the first cell itself belongs the value
right below the lowest, and nothing holds it back: a histogram stays as
it is for the values outside its bounds, but for this one
(`Holds.add_eq_self_iff`).

# Many values

The first cell is also what the others are found from. When it goes up,
every cell belongs to the value above the one it belonged to. A run is
therefore described with the first cell as it is when a value comes
(`firstAfter`, `timesHit`), and this needs nothing of the values
(`first_addAll`, `cell_addAll`).

It describes an exact count as long as the value right below the lowest
does not come, and no longer (`exact_iff_notMem`): the first cell only
goes up, and too few values come for it to get round to where it was.
-/
import DiceNotation.Proofs.Sampler.Histogram

namespace DiceNotation.Histogram

open Word (Fits)

variable {histogram : Histogram} {lowest highest first value : Int64}
  {values : List Int64}

-- ============================================================= one value

theorem slot_eq_iff {place : Int64} :
    histogram.slot value = place
      ↔ value = histogram.lowest + (place - 1) := by
  unfold slot
  grind

/-- To the first cell belongs the value right below the lowest. -/
theorem slot_eq_zero_iff :
    histogram.slot value = Int64.ofNat 0
      ↔ value = histogram.lowest - 1 := by
  rw [slot_eq_iff]
  grind

/-- To the cells behind it belong the values from the lowest one up. -/
theorem slot_eq_succ_iff {offset : Nat} :
    histogram.slot value = Int64.ofNat (offset + 1)
      ↔ value = histogram.lowest + Int64.ofNat offset := by
  rw [slot_eq_iff, Int64.ofNat_add]
  grind

/-- The index that a place stands for, unless it is before the first. -/
theorem index_eq_iff (place : Int64) {index : Nat}
    (h : index < 2 ^ 63) :
    0 ≤ place ∧ place.toInt.toNat = index
      ↔ place = Int64.ofNat index := by
  rw [← Int64.toInt_inj, Int64.toInt_ofNat_of_lt h,
    Int64.le_iff_toInt_le, Int64.toInt_zero]
  omega

/-- One cell goes up by one, or none does. -/
theorem getElem?_add (histogram : Histogram) (value : Int64)
    {index : Nat} (h : index < 2 ^ 63) :
    (histogram.add value).cells[index]?
      = histogram.cells[index]?.map fun cell =>
          cell + if histogram.slot value = Int64.ofNat index then 1
            else 0 := by
  have hindex := index_eq_iff (histogram.slot value) h
  unfold Histogram.add
  simp only
  split
  · next hpos =>
      rw [Array.getElem?_modify]
      by_cases hsame : (histogram.slot value).toInt.toNat = index
      · rw [if_pos hsame, if_pos (hindex.1 ⟨hpos, hsame⟩)]
      · rw [if_neg hsame, if_neg fun heq => hsame (hindex.2 heq).2]
        simp
  · next hneg =>
      rw [if_neg fun heq => hneg (hindex.2 heq).1]
      simp

@[simp] theorem size_add (histogram : Histogram) (value : Int64) :
    (histogram.add value).cells.size = histogram.cells.size := by
  unfold Histogram.add
  simp only
  split <;> simp

theorem cells_inj {one other : Histogram} :
    one.cells = other.cells ↔ one = other := by
  cases one
  cases other
  simp

/-- A histogram stays as it is if no cell belongs to the value. -/
theorem add_eq_self_iff (hsize : histogram.cells.size < 2 ^ 63) :
    histogram.add value = histogram
      ↔ ∀ index < histogram.cells.size,
          histogram.slot value ≠ Int64.ofNat index := by
  constructor
  · intro hsame index hindex hslot
    have hcell := getElem?_add histogram value
      (Nat.lt_trans hindex hsize)
    rw [hsame, if_pos hslot, Array.getElem?_eq_getElem hindex,
      Option.map_some, Option.some_inj] at hcell
    grind
  · intro hnone
    apply cells_inj.1
    apply Array.ext (size_add histogram value)
    intro index _ hindex
    apply Option.some_inj.1
    rw [← Array.getElem?_eq_getElem, ← Array.getElem?_eq_getElem,
      getElem?_add histogram value (Nat.lt_trans hindex hsize),
      if_neg (hnone index hindex)]
    simp

-- =========================================================== many values

/-- The first cell after a value, which raises it from right below. -/
def raised (first value : Int64) : Int64 :=
  first + if value = first - 1 then 1 else 0

theorem raised_below (first : Int64) :
    raised first (first - 1) = first + 1 := by
  rw [raised, if_pos rfl]

theorem raised_of_ne (h : value ≠ first - 1) :
    raised first value = first := by
  rw [raised, if_neg h, Int64.add_zero]

/-- The first cell after values. -/
def firstAfter (first : Int64) (values : List Int64) : Int64 :=
  values.foldl raised first

/-- How often a value came that was so far above the first cell as it
was by then. -/
def timesHit (offset : Nat) : Int64 → List Int64 → Nat
  | _, [] => 0
  | first, value :: values =>
      timesHit offset (raised first value) values
        + if value = first + Int64.ofNat offset then 1 else 0

theorem first_add (value : Int64)
    (h : histogram.cells[0]? = some first) :
    (histogram.add value).cells[0]? = some (raised first value) := by
  rw [getElem?_add histogram value (by omega), h, Option.map_some]
  simp only [slot_eq_zero_iff, lowest_eq_of_first h]
  rfl

theorem cell_add (h : histogram.cells[0]? = some first) {offset : Nat}
    (hoffset : offset + 1 < 2 ^ 63) :
    (histogram.add value).cells[offset + 1]?
      = histogram.cells[offset + 1]?.map fun cell =>
          cell + if value = first + Int64.ofNat offset then 1
            else 0 := by
  rw [getElem?_add histogram value hoffset]
  simp only [slot_eq_succ_iff, lowest_eq_of_first h]

/-- What the first cell is after any values. -/
theorem first_addAll (h : histogram.cells[0]? = some first) :
    (histogram.addAll values).cells[0]?
      = some (firstAfter first values) := by
  induction values generalizing histogram first with
  | nil => exact h
  | cons value values ih => exact ih (first_add value h)

/-- What a cell behind the first has counted after any values. -/
theorem cell_addAll (h : histogram.cells[0]? = some first)
    {offset : Nat} (hoffset : offset + 1 < 2 ^ 63) :
    (histogram.addAll values).cells[offset + 1]?
      = histogram.cells[offset + 1]?.map fun cell =>
          cell + Int64.ofNat (timesHit offset first values) := by
  induction values generalizing histogram first with
  | nil => simp [addAll, timesHit]
  | cons value values ih =>
      have hrest := ih (first_add value h)
      rw [cell_add h hoffset, Option.map_map] at hrest
      refine hrest.trans (congrArg (Option.map · _) ?_)
      funext cell
      rw [Function.comp_apply, timesHit, Int64.ofNat_add,
        Int64.add_comm (Int64.ofNat (timesHit _ _ _)), ← Int64.add_assoc]
      split <;> rfl

theorem size_addAll (histogram : Histogram) (values : List Int64) :
    (histogram.addAll values).cells.size = histogram.cells.size := by
  induction values generalizing histogram with
  | nil => rfl
  | cons value values ih =>
      exact (ih (histogram.add value)).trans (size_add histogram value)

-- ============================================================ exactness

/-- The first cell goes up as often as a value raises it, which is never
only if none that would raise it as it was comes. -/
theorem exists_firstAfter (first : Int64) (values : List Int64) :
    ∃ rises ≤ values.length,
      firstAfter first values = first + Int64.ofNat rises
        ∧ (rises = 0 ↔ first - 1 ∉ values) := by
  induction values generalizing first with
  | nil =>
      exact ⟨0, Nat.le_refl 0, (Int64.add_zero first).symm, by simp⟩
  | cons value values ih =>
      obtain ⟨rises, hle, hafter, hzero⟩ := ih (raised first value)
      by_cases hvalue : value = first - 1
      · subst hvalue
        refine ⟨rises + 1, Nat.succ_le_succ hle, ?_, by simp⟩
        calc firstAfter first ((first - 1) :: values)
            = raised first (first - 1) + Int64.ofNat rises := hafter
          _ = first + (1 + Int64.ofNat rises) := by
              rw [raised_below, Int64.add_assoc]
          _ = first + Int64.ofNat (rises + 1) := by
              rw [Int64.ofNat_add, Int64.add_comm 1]
              rfl
      · refine ⟨rises, Nat.le_succ_of_le hle, ?_, ?_⟩
        · exact hafter.trans (by rw [raised_of_ne hvalue])
        · rw [raised_of_ne hvalue] at hzero
          simp [hzero, Ne.symm hvalue]

/-- As long as the first cell stays, a cell counts one value. -/
theorem timesHit_eq_count {offset : Nat} (h : first - 1 ∉ values) :
    timesHit offset first values
      = values.count (first + Int64.ofNat offset) := by
  induction values with
  | nil => rfl
  | cons value values ih =>
      rw [List.mem_cons, not_or] at h
      obtain ⟨hvalue, hvalues⟩ := h
      rw [timesHit, raised_of_ne (Ne.symm hvalue), ih hvalues,
        List.count_cons]
      simp

/-- No value that a histogram reaches lies out of range. -/
theorem eq_add_ofNat_iff (hwidth : cellCount lowest highest ≤ maxCells)
    {offset : Nat}
    (hoffset : (offset : Int) ≤ highest.toInt - lowest.toInt) :
    value.toInt = lowest.toInt + offset
      ↔ value = lowest + Int64.ofNat offset := by
  unfold cellCount maxCells at hwidth
  have hword : (Int64.ofNat offset).toInt = offset :=
    Int64.toInt_ofNat_of_lt (by omega)
  have hfit : Fits (lowest.toInt + (Int64.ofNat offset).toInt) := by
    have hlow := lowest.le_toInt
    have hhigh := highest.toInt_lt
    rw [Word.fits_iff, hword]
    omega
  rw [← Int64.toInt_inj, Word.add_toInt hfit, hword]

theorem timesAbove_eq_count
    (hwidth : cellCount lowest highest ≤ maxCells) {offset : Nat}
    (hoffset : (offset : Int) ≤ highest.toInt - lowest.toInt) :
    timesAbove lowest offset values
      = values.count (lowest + Int64.ofNat offset) := by
  rw [timesAbove, List.count]
  refine List.countP_congr fun value _ => ?_
  simp [eq_add_ofNat_iff hwidth hoffset]

theorem cellCount_le_of_ofRange?
    (h : ofRange? lowest highest = some histogram) :
    cellCount lowest highest ≤ maxCells := by
  by_contra hwide
  rw [ofRange?_eq_none_iff.2 fun hcells => hwide hcells.2] at h
  cases h

/-- A histogram that holds what it should stays as it is for the values
outside its bounds, but for one. -/
theorem Holds.add_eq_self_iff
    (h : histogram.Holds lowest highest values)
    (hwidth : cellCount lowest highest ≤ maxCells) :
    histogram.add value = histogram
      ↔ ¬ Between lowest highest value ∧ value ≠ lowest - 1 := by
  obtain ⟨hsome, -⟩ := Array.getElem?_eq_some_iff.1 h.first
  have hsize := h.size
  have hlimit : histogram.cells.size < 2 ^ 63 := by
    unfold maxCells at hwidth
    omega
  unfold cellCount at hsize
  rw [Histogram.add_eq_self_iff hlimit]
  constructor
  · intro hnone
    refine ⟨fun hvalue => ?_, fun hbelow => ?_⟩
    · obtain ⟨offset, hplace, hinside⟩ := hvalue.exists_offset
      refine hnone (offset + 1) (by omega) (slot_eq_succ_iff.2 ?_)
      rw [h.lowest_eq]
      exact (eq_add_ofNat_iff hwidth hinside).1 hplace
    · refine hnone 0 hsome (slot_eq_zero_iff.2 ?_)
      rw [h.lowest_eq]
      exact hbelow
  · intro hvalue index hindex hslot
    obtain ⟨houtside, hbelow⟩ := hvalue
    cases index with
    | zero =>
        rw [slot_eq_zero_iff, h.lowest_eq] at hslot
        exact hbelow hslot
    | succ offset =>
        have hinside : (offset : Int) ≤ highest.toInt - lowest.toInt := by
          omega
        rw [slot_eq_succ_iff, h.lowest_eq,
          ← eq_add_ofNat_iff hwidth hinside] at hslot
        exact houtside ⟨by omega, by omega⟩

/-- A new histogram holds what it should after any values among which
the one right below the lowest is not. -/
theorem holds_addAll_of_notMem
    (hnew : ofRange? lowest highest = some histogram)
    (hroom : values.length < 2 ^ 63) (h : lowest - 1 ∉ values) :
    (histogram.addAll values).Holds lowest highest values := by
  have hwidth := cellCount_le_of_ofRange? hnew
  have hstart := holds_of_ofRange? hnew
  refine ⟨?_, ?_, ?_⟩
  · rw [size_addAll]
    exact hstart.size
  · obtain ⟨rises, -, hafter, hzero⟩ := exists_firstAfter lowest values
    rw [first_addAll hstart.first, hafter, hzero.2 h]
    exact congrArg some (Int64.add_zero lowest)
  · intro offset hoffset
    have hplace : offset + 1 < 2 ^ 63 := by
      unfold cellCount maxCells at hwidth
      omega
    obtain ⟨count, hcell, hcount⟩ := hstart.cell offset hoffset
    have hnone : count = 0 := Int64.toInt_inj.1 hcount
    have hle := timesAbove_le_length lowest offset values
    refine ⟨_, ?_, Int64.toInt_ofNat_of_lt (by omega)⟩
    rw [cell_addAll hstart.first hplace, hcell, hnone, Option.map_some,
      Int64.zero_add, timesHit_eq_count h,
      ← timesAbove_eq_count hwidth hoffset]

/-- A histogram counts exactly as long as the value right below its
lowest is not counted, and no longer. -/
theorem exact_iff_notMem
    (hnew : ofRange? lowest highest = some histogram)
    (hroom : values.length < 2 ^ 63) :
    ((histogram.addAll values).cells.size : Int)
        = cellCount lowest highest
      ∧ ((histogram.addAll values).Holds lowest highest values
          ↔ lowest - 1 ∉ values)
      ∧ (lowest - 1 ∉ values → ∀ value,
          (histogram.addAll values).add value = histogram.addAll values
            ↔ ¬ Between lowest highest value ∧ value ≠ lowest - 1) := by
  have hstart := holds_of_ofRange? hnew
  refine ⟨?_, ⟨?_, ?_⟩, ?_⟩
  · rw [size_addAll]
    exact hstart.size
  · intro hheld
    obtain ⟨rises, hle, hafter, hzero⟩ := exists_firstAfter lowest values
    have hfirst := hheld.first
    rw [first_addAll hstart.first, hafter, Option.some_inj] at hfirst
    -- fewer rises than words leave the first cell above where it was
    have hnone : Int64.ofNat rises = 0 := by grind
    rw [← Int64.toInt_inj, Int64.toInt_ofNat_of_lt (by omega),
      Int64.toInt_zero] at hnone
    exact hzero.1 (by omega)
  · exact holds_addAll_of_notMem hnew hroom
  · intro h value
    exact (holds_addAll_of_notMem hnew hroom h).add_eq_self_iff
      (cellCount_le_of_ofRange? hnew)

/-- A value so far above that its difference wraps is left out, and the
others are counted exactly. -/
theorem exact_of_values_far_away :
    ∃ histogram, ofRange? (-2) 1 = some histogram
      ∧ (histogram.addAll [-2, 1, Int64.maxValue, 1, 40]).Holds (-2) 1
          [-2, 1, Int64.maxValue, 1, 40] := by
  have hnew : ofRange? (-2) 1 = some ⟨#[-2, 0, 0, 0, 0]⟩ := by decide
  have hroom : ([-2, 1, Int64.maxValue, 1, 40] : List Int64).length
      < 2 ^ 63 := by decide
  obtain ⟨-, hexact, -⟩ := exact_iff_notMem hnew hroom
  exact ⟨_, hnew, hexact.2 (by decide)⟩

/-- The value right below the lowest moves every cell: afterwards the
lowest value raises the first cell once more, and a value above the
bounds is counted. -/
theorem moved_from_below :
    ∃ histogram, ofRange? 0 2 = some histogram
      ∧ histogram.addAll [-1, 0, 3] = ⟨#[2, 0, 1, 0]⟩
      ∧ ¬ (histogram.addAll [-1, 0, 3]).Holds 0 2 [-1, 0, 3] := by
  refine ⟨⟨#[0, 0, 0, 0]⟩, by decide, by decide, ?_⟩
  intro hheld
  exact absurd hheld.first (by decide)

end DiceNotation.Histogram
