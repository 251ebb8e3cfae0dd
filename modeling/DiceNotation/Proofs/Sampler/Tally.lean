/-
What the sampler counts. From a text that is read as a die, and for any
number of trials, whatever their sources give, the sampler either finds
the totals too far apart for a histogram, before the first trial, or it
counts every total and every face of every trial, each in its cell.

# From trials to histograms

The trials are taken one by one, and each outcome is counted in both
histograms at once. Seen from one histogram, its values are counted in
the order of the trials (`sample_eq`); and a histogram that counts values
between its bounds holds them all (`Histogram.Holds.addAll`). So all that
is left to say of a trial is that its total lies between the bounds of
the die, and its faces between one and the largest number of sides.

# Why one width is enough

The histogram of the faces is made second, and is never refused: a die
has as many totals as sides, at the least (`Die.largestSides_le_width`).
-/
import DiceNotation.Proofs.Die.Sides
import DiceNotation.Proofs.Notation.RoundTrip
import DiceNotation.Proofs.Roll.Report
import DiceNotation.Proofs.Sampler.Histogram
import DiceNotation.Sampler

namespace DiceNotation

open Histogram (Between Holds cellCount)

-- ============================================================= the bounds

namespace Die

/-- The total of a roll lies between the bounds of the die. -/
theorem WithinLimits.total_between {die : Die} (h : die.WithinLimits)
    {σ : Type} [WordSource σ] (source : σ) :
    Between die.lowest die.highest (die.roll source).1.total := by
  obtain ⟨hlowest, hhighest⟩ := h.boundsFit.toInt
  obtain ⟨hlow, hhigh⟩ := (die.roll_shows source).exactTotal_bounds
  constructor
  · rw [hlowest, h.roll_total]
    exact hlow
  · rw [hhighest, h.roll_total]
    exact hhigh

/-- A face that a die shows is at least one and at most its largest
number of sides. -/
theorem Shows.face_between {die : Die} {outcome : Outcome}
    (h : die.Shows outcome) :
    ∀ face ∈ outcome.faces,
      Between 1 (Word.widen die.largestSides) (Word.widen face) := by
  have hall : ∀ face ∈ outcome.faces,
      1 ≤ face.toNat ∧ face.toNat ≤ die.largestSides.toNat := by
    induction h with
    | @group g faces length on =>
        intro face hface
        rw [Outcome.ofFaces, Outcome.faces_group] at hface
        exact ⟨(on face hface).pos, (on face hface).le⟩
    | join _ _ ihl ihr =>
        intro face hface
        rw [Outcome.ofSides, Outcome.faces_join, List.mem_append] at hface
        rw [largestSides, UInt32.toNat_max]
        rcases hface with hface | hface
        · have := ihl face hface
          omega
        · have := ihr face hface
          omega
  intro face hface
  obtain ⟨hpos, hle⟩ := hall face hface
  constructor
  · rw [Int64.toInt_one, Word.widen_toInt]
    omega
  · rw [Word.widen_toInt, Word.widen_toInt]
    omega

/-- The cells of the totals are as many as the bounds are apart, and two
more. -/
theorem WithinLimits.cellCount_totals {die : Die} (h : die.WithinLimits) :
    cellCount die.lowest die.highest
      = die.exactHighest - die.exactLowest + 2 := by
  obtain ⟨hlowest, hhighest⟩ := h.boundsFit.toInt
  unfold cellCount
  rw [hlowest, hhighest]

/-- The cells of the faces are as many as the sides, and one more. -/
theorem cellCount_faces (die : Die) :
    cellCount 1 (Word.widen die.largestSides)
      = die.largestSides.toNat + 1 := by
  unfold cellCount
  rw [Word.widen_toInt, Int64.toInt_one]
  omega

end Die

namespace Sampler

-- ============================================================= the trials

variable {σ : Type} [WordSource σ]

/-- The outcomes of so many trials, from the trial of a given number
on. -/
def outcomesFrom (die : Die) (sources : Nat → σ) (trial n : Nat) :
    List Outcome :=
  (List.range' trial n).map fun trial => (die.roll (sources trial)).1

/-- The totals of outcomes. -/
def totalsOf (outcomes : List Outcome) : List Int64 :=
  outcomes.map Outcome.total

/-- The faces of outcomes, as they are counted. -/
def facesOf (outcomes : List Outcome) : List Int64 :=
  outcomes.flatMap fun outcome => outcome.faces.map Word.widen

/-- The trials count the totals in one histogram and the faces in the
other, in the order of the trials. -/
theorem sample_eq (die : Die) (sources : Nat → σ) (n trial : Nat)
    (tally : Tally) :
    Tally.sample die sources n trial tally
      = ⟨tally.faces.addAll (facesOf (outcomesFrom die sources trial n)),
          tally.totals.addAll
            (totalsOf (outcomesFrom die sources trial n))⟩ := by
  induction n generalizing trial tally with
  | zero => rfl
  | succ n ih =>
      have houtcomes : outcomesFrom die sources trial (n + 1)
          = (die.roll (sources trial)).1
            :: outcomesFrom die sources (trial + 1) n := by
        unfold outcomesFrom
        rw [List.range'_succ, List.map_cons]
      simp only [Tally.sample]
      rw [ih, houtcomes]
      unfold facesOf totalsOf Tally.add Histogram.addAll
      rw [List.flatMap_cons, List.foldl_append, List.map_cons,
        List.foldl_cons]

theorem length_totalsOf (die : Die) (sources : Nat → σ) (trial n : Nat) :
    (totalsOf (outcomesFrom die sources trial n)).length = n := by
  unfold totalsOf outcomesFrom
  simp

theorem length_facesOf (die : Die) (sources : Nat → σ) (trial n : Nat) :
    (facesOf (outcomesFrom die sources trial n)).length
      = n * die.diceCount := by
  have hlength : ∀ trial : Nat,
      (die.roll (sources trial)).1.faces.length = die.diceCount := by
    intro trial
    exact (die.roll_shows _).length_faces
  unfold facesOf outcomesFrom
  simp only [List.length_flatMap, List.length_map, List.map_map,
    Function.comp_def, hlength, List.map_const', List.sum_replicate_nat,
    List.length_range']

/-- What is counted lies between the bounds of its histogram. -/
theorem between_of_mem {die : Die} (hlimits : die.WithinLimits)
    (sources : Nat → σ) (trial n : Nat) :
    (∀ total ∈ totalsOf (outcomesFrom die sources trial n),
      Between die.lowest die.highest total)
    ∧ ∀ face ∈ facesOf (outcomesFrom die sources trial n),
      Between 1 (Word.widen die.largestSides) face := by
  unfold totalsOf facesOf outcomesFrom
  constructor
  · intro total htotal
    simp only [List.mem_map] at htotal
    obtain ⟨outcome, ⟨trial, -, rfl⟩, rfl⟩ := htotal
    exact hlimits.total_between _
  · intro face hface
    simp only [List.mem_flatMap, List.mem_map] at hface
    obtain ⟨outcome, ⟨trial, -, rfl⟩, face, hface, rfl⟩ := hface
    exact (die.roll_shows _).face_between face hface

-- ============================================================== the start

/-- The histogram of the totals is refused if it has too many cells. -/
theorem totals_eq_none_iff {die : Die} (h : die.WithinLimits) :
    Histogram.ofRange? die.lowest die.highest = none
      ↔ 2 ^ 24 < cellCount die.lowest die.highest := by
  have hordered := die.exactLowest_le
  rw [Histogram.ofRange?_eq_none_iff, h.cellCount_totals]
  unfold Histogram.maxCells
  omega

/-- The histogram of the faces is not refused then. -/
theorem faces_ne_none {die : Die} (h : die.WithinLimits)
    (hwidth : cellCount die.lowest die.highest ≤ 2 ^ 24) :
    Histogram.ofRange? 1 (Word.widen die.largestSides) ≠ none := by
  have hsides := die.largestSides_le_width
  rw [h.cellCount_totals] at hwidth
  rw [Ne, Histogram.ofRange?_eq_none_iff, die.cellCount_faces]
  unfold Histogram.maxCells
  omega

/-- So one width decides whether there are histograms to start with. -/
theorem exists_start {die : Die} (h : die.WithinLimits)
    (hwidth : cellCount die.lowest die.highest ≤ 2 ^ 24) :
    ∃ start, Tally.start die = .ok start
      ∧ start.totals.Holds die.lowest die.highest []
      ∧ start.faces.Holds 1 (Word.widen die.largestSides) [] := by
  unfold Tally.start
  cases htotals : Histogram.ofRange? die.lowest die.highest with
  | none =>
      have := (totals_eq_none_iff h).1 htotals
      omega
  | some totals =>
      cases hfaces : Histogram.ofRange? 1 (Word.widen die.largestSides) with
      | none => exact absurd hfaces (faces_ne_none h hwidth)
      | some faces =>
          exact ⟨⟨faces, totals⟩, by simp [hfaces],
            Histogram.holds_of_ofRange? htotals,
            Histogram.holds_of_ofRange? hfaces⟩

-- ============================================================ the counting

/-- What so many trials of a die leave of the histograms they start
with. Counting them stays in range, every total and every face is held
in its cell, and none is lost. -/
structure Counted (die : Die) (sources : Nat → σ) (num : Nat)
    (start final : Tally) : Prop where
  totals_fit :
    start.totals.StepsFit (totalsOf (outcomesFrom die sources 0 num))
  faces_fit :
    start.faces.StepsFit (facesOf (outcomesFrom die sources 0 num))
  totals : final.totals.Holds die.lowest die.highest
    (totalsOf (outcomesFrom die sources 0 num))
  totals_sum :
    ((final.totals.cells.toList.drop 1).map Int64.toInt).sum = num
  faces : final.faces.Holds 1 (Word.widen die.largestSides)
    (facesOf (outcomesFrom die sources 0 num))
  faces_sum : ((final.faces.cells.toList.drop 1).map Int64.toInt).sum
    = num * die.diceCount

/-- Trials are counted in full, as many of them as a 32-bit word can
tell. -/
theorem counted_sample {die : Die} (hlimits : die.WithinLimits)
    (hwidth : cellCount die.lowest die.highest ≤ 2 ^ 24)
    {start : Tally} (htotals : start.totals.Holds die.lowest die.highest [])
    (hfaces : start.faces.Holds 1 (Word.widen die.largestSides) [])
    (sources : Nat → σ) {num : Nat} (hnum : num < 2 ^ 32) :
    Counted die sources num start
      (Tally.sample die sources num 0 start) := by
  obtain ⟨hlowest, hhighest⟩ := hlimits.boundsFit.toInt
  have hordered := die.exactLowest_le
  have hpos := die.largestSides_pos
  have hsides := die.largestSides_le_width
  have htotalCells := hlimits.cellCount_totals
  have hfaceCells := die.cellCount_faces
  obtain ⟨hbetween, hbetweenFaces⟩ :=
    between_of_mem hlimits sources 0 num
  have hlengthTotals := length_totalsOf die sources 0 num
  have hlengthFaces := length_facesOf die sources 0 num
  have hdice : num * die.diceCount ≤ 2 ^ 32 * 100000000 :=
    Nat.mul_le_mul (Nat.le_of_lt hnum) hlimits.diceCount_le
  -- the faces of all trials are what could fill a cell the most
  have hroomTotals : ([] ++ totalsOf
      (outcomesFrom die sources 0 num)).length < 2 ^ 63 := by
    rw [List.nil_append, hlengthTotals]
    omega
  have hroomFaces : ([] ++ facesOf
      (outcomesFrom die sources 0 num)).length < 2 ^ 63 := by
    rw [List.nil_append, hlengthFaces]
    omega
  have hwidthFaces : cellCount 1 (Word.widen die.largestSides)
      ≤ Histogram.maxCells := by
    rw [hfaceCells]
    unfold Histogram.maxCells
    omega
  obtain ⟨hfitTotals, hheldTotals⟩ :=
    htotals.addAll hwidth hbetween hroomTotals
  obtain ⟨hfitFaces, hheldFaces⟩ :=
    hfaces.addAll hwidthFaces hbetweenFaces hroomFaces
  rw [List.nil_append] at hheldTotals hheldFaces
  rw [sample_eq]
  refine ⟨hfitTotals, hfitFaces, hheldTotals, ?_, hheldFaces, ?_⟩
  · rw [hheldTotals.sum_cells (by omega) hbetween, hlengthTotals]
  · have hsided : (1 : Int64).toInt
        ≤ (Word.widen die.largestSides).toInt := by
      rw [Int64.toInt_one, Word.widen_toInt]
      omega
    rw [hheldFaces.sum_cells hsided hbetweenFaces, hlengthFaces]
    exact Int.natCast_mul ..

-- ============================================================= the program

/-- Every number of trials can be asked for, by its numeral. -/
theorem trialCount_numeral (num : UInt32) :
    trialCount [String.ofList (Decimal.ofNat num.toNat)] = num.toNat := by
  have hdigits := isDigit_of_mem_ofNat num.toNat
  have htrials : trials? (Decimal.ofNat num.toNat) = some num := by
    unfold trials?
    split
    · next digits hplus =>
        -- no numeral starts with a plus
        have hfirst := hdigits '+' (by rw [hplus]; simp)
        cases hfirst
    · simp only [readWord_ofNat]
  simp only [trialCount]
  rw [String.toList_ofList, htrials]
  rfl

/-- The sampler counts all. For a text that is read as a die, and any
number of trials: the totals are refused a histogram only for having too
many values, and then the faces get one, too; both have a first cell.
With histograms to start with, each trial is counted without a sum that
leaves the range, and at the end every total and every face is held in
its cell, so that the cells behind the first sum up to the number of
trials and to the number of dice in them. -/
theorem tally_holds_all {text : String} {die : Die}
    (h : Die.parse text = .ok die) (sources : Nat → σ) (num : UInt32) :
    (Histogram.ofRange? die.lowest die.highest = none
      ↔ 2 ^ 24 < die.highest.toInt - die.lowest.toInt + 2)
    ∧ (Histogram.ofRange? die.lowest die.highest ≠ none →
      Histogram.ofRange? 1 (Word.widen die.largestSides) ≠ none)
    ∧ 0 < cellCount die.lowest die.highest
    ∧ 0 < cellCount 1 (Word.widen die.largestSides)
    ∧ (∀ trial, (die.roll (sources trial)).1.SumsFit)
    ∧ (∀ rest, Histogram.ofRange? die.lowest die.highest = none →
      tally (text :: rest) sources
        = .error (.tooWide die.lowest die.highest))
    ∧ (Histogram.ofRange? die.lowest die.highest ≠ none →
      ∃ start final, Tally.start die = .ok start
        ∧ Counted die sources num.toNat start final
        ∧ (∃ rest, trialCount rest = num.toNat)
        ∧ ∀ rest, trialCount rest = num.toNat →
          tally (text :: rest) sources = .ok final) := by
  have hlimits := (Die.shape_of_parse h).2
  have hordered := die.exactLowest_le
  have hnone := totals_eq_none_iff hlimits
  have hwidth : Histogram.ofRange? die.lowest die.highest ≠ none →
      cellCount die.lowest die.highest ≤ 2 ^ 24 := by
    intro hsome
    exact Int.not_lt.1 fun hlt => hsome (hnone.2 hlt)
  refine ⟨hnone, fun hsome => faces_ne_none hlimits (hwidth hsome), ?_, ?_,
    fun trial => (die.roll_shows _).sumsFit hlimits, ?_, ?_⟩
  · rw [hlimits.cellCount_totals]
    omega
  · rw [die.cellCount_faces]
    omega
  · intro rest hrefused
    unfold tally Tally.start
    simp only [h, hrefused]
  · intro hsome
    obtain ⟨start, hstart, htotals, hfaces⟩ :=
      exists_start hlimits (hwidth hsome)
    have hcounted := counted_sample hlimits (hwidth hsome) htotals hfaces
      sources num.toNat_lt
    refine ⟨start, _, hstart, hcounted, ⟨_, trialCount_numeral num⟩, ?_⟩
    intro rest hrest
    unfold tally
    simp only [h, hstart, hrest]

/-- Three trials of two dice with two sides count three totals and six
faces. -/
theorem tally_of_three_trials :
    ∃ final, tally ["2d2-1", "3"] (fun _ => WordList.ofList [3000000000])
        = .ok final
      ∧ final.totals.cells[0]? = some 1
      ∧ final.totals.cells.size = 4
      ∧ ((final.totals.cells.toList.drop 1).map Int64.toInt).sum = 3
      ∧ final.faces.cells.size = 3
      ∧ ((final.faces.cells.toList.drop 1).map Int64.toInt).sum = 6 := by
  let die : Die := .group ⟨⟨2, by decide⟩, ⟨2, by decide⟩, -1⟩
  have hparse : Die.parse "2d2-1" = .ok die := by rfl
  obtain ⟨-, -, -, -, -, -, hcounted⟩ := tally_holds_all hparse
    (fun _ => WordList.ofList [3000000000]) 3
  obtain ⟨start, final, -, hfinal, -, htally⟩ := hcounted (by decide)
  have hsize := hfinal.totals.size
  have hsizeFaces := hfinal.faces.size
  have hcells : cellCount die.lowest die.highest = 4 := by decide
  have hcellsFaces : cellCount 1 (Word.widen die.largestSides) = 3 := by
    decide
  have hlowest : die.lowest = 1 := by decide
  have hfirst := hfinal.totals.first
  rw [hlowest] at hfirst
  exact ⟨final, htally ["3"] (by rfl), hfirst, by omega,
    hfinal.totals_sum, by omega, hfinal.faces_sum⟩

end Sampler

end DiceNotation
