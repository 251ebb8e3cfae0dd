/-
Bounds of dice past all limits. The notation keeps dice so small that no
step of their bounds is stopped at an end of the 64-bit range; dice that
were not read can be of any size, and then steps are stopped, on the
way, and with a negative bonus or a negative side still to be added. The
bounds are no exact sums there, but they are bounds all the same.

What carries this is that stopping keeps the order. A step that adds two
lower bounds gives a lower bound of the sum of what they bound, stopped
or not, as long as that sum itself is in range, and likewise from above
(`Word.addSaturating_le_add`, `Word.add_le_addSaturating`). A die is
rolled and its bounds are formed by the same additions at the same
places, so the one goes along with the other, join by join.
-/
import DiceNotation.Proofs.Roll.Range

namespace DiceNotation

open Word (Fits)

-- ========================================================== of one group

namespace Group

/-- The count of a group is no more than the product with its sides,
where that stops. -/
theorem widen_count_le (g : Group) :
    Word.widen g.count.val
      ≤ Word.mulSaturating g.count.val g.sides.val := by
  have hproduct : g.count.val.toNat
      ≤ g.count.val.toNat * g.sides.val.toNat := g.count_le_product
  have hfits : Fits g.count.val.toNat := by
    have hlt := g.count.val.toNat_lt
    rw [Word.fits_iff]
    omega
  rw [Int64.le_iff_toInt_le, Word.mulSaturating_eq_clamp,
    Word.widen_toInt]
  exact Word.le_clamp hfits (by exact_mod_cast hproduct)

/-- Faces of a group whose sums fit lie between its count and the
product with its sides. -/
theorem sumFaces_between {g : Group} {faces : List UInt32}
    (length : faces.length = g.count.toNat)
    (on : ∀ face ∈ faces, Face.On g.sides face)
    (hfit : Outcome.FacesFit 0 faces) :
    Word.widen g.count.val ≤ Outcome.sumFaces faces
      ∧ Outcome.sumFaces faces
        ≤ Word.mulSaturating g.count.val g.sides.val := by
  obtain ⟨hlow, hhigh⟩ := Die.exactSum_bounds on
  rw [length] at hlow hhigh
  have hsum : (Outcome.sumFaces faces).toInt = Outcome.exactSum faces := by
    unfold Outcome.sumFaces
    rw [hfit.foldl_toInt, Int64.toInt_zero, Int.zero_add]
  rw [Int64.le_iff_toInt_le, Int64.le_iff_toInt_le, Word.widen_toInt,
    Word.mulSaturating_eq_clamp, hsum]
  constructor
  · exact_mod_cast hlow
  · -- a sum of faces is itself in range, so that nothing stops it
    have hfits : Fits (Outcome.exactSum faces) := by
      rw [← hsum]
      exact ⟨Int64.minValue_le_toInt _, Int64.toInt_le _⟩
    exact Word.le_clamp hfits (by exact_mod_cast hhigh)

end Group

-- ============================================================ of any die

namespace Die

/-- The lowest total is no more than the highest. -/
theorem lowest_le_highest (die : Die) : die.lowest ≤ die.highest := by
  induction die with
  | group g =>
      exact Word.addSaturating_mono g.widen_count_le (Int64.le_refl _)
  | join left right ihl ihr => exact Word.addSaturating_mono ihl ihr

/-- The bounds of a die have a total between them. -/
structure Encloses (die : Die) (total : Int64) : Prop where
  low : die.lowest ≤ total
  high : total ≤ die.highest

/-- What a die shows, if its sums fit, has its total between the
bounds. -/
theorem Shows.encloses {die : Die} {outcome : Outcome}
    (h : die.Shows outcome) (hfit : outcome.SumsFit) :
    die.Encloses outcome.total := by
  induction h with
  | @group g faces length on =>
      obtain ⟨hfaces, hbonus⟩ := hfit
      obtain ⟨hlow, hhigh⟩ := Group.sumFaces_between length on hfaces
      exact ⟨Word.addSaturating_le_add hlow (Int64.le_refl _) hbonus,
        Word.add_le_addSaturating hhigh (Int64.le_refl _) hbonus⟩
  | join _ _ ihl ihr =>
      obtain ⟨hleft, hright, hsum⟩ := hfit
      obtain ⟨hlowl, hhighl⟩ := ihl hleft
      obtain ⟨hlowr, hhighr⟩ := ihr hright
      exact ⟨Word.addSaturating_le_add hlowl hlowr hsum,
        Word.add_le_addSaturating hhighl hhighr hsum⟩

/-- The bounds of any die are in order, and whatever it rolls lies
between them unless a sum of the roll leaves the range. That holds where
steps of the bounds are stopped as well. -/
theorem bounds_enclose_totals (die : Die) :
    die.lowest ≤ die.highest
      ∧ ∀ (σ : Type) [WordSource σ] (source : σ),
        (die.roll source).1.SumsFit →
        die.Encloses (die.roll source).1.total := by
  refine ⟨die.lowest_le_highest, ?_⟩
  intro σ _ source hfit
  exact (die.roll_shows source).encloses hfit

/-- Some words roll a group to sums that fit: where all of its dice show
one, they are far inside the range. -/
theorem exists_sumsFit (g : Group) :
    ∃ words, ((Die.group g).roll (WordList.ofList words)).1.SumsFit := by
  obtain ⟨faces, hlength, hon, hsum⟩ :=
    exists_faces g.sides g.count.toNat g.count.toNat (Nat.le_refl _)
      g.count_le_product
  obtain ⟨words, hroll⟩ := shows_iff_exists_words.1 (.group hlength hon)
  have hcount : g.count.toNat < 2 ^ 32 := g.count.val.toNat_lt
  have hfaces : Outcome.FacesFit 0 faces := by
    refine Outcome.facesFit_of_lt (Int.le_refl _) ?_
    rw [Int64.toInt_zero, hsum]
    omega
  refine ⟨words, ?_⟩
  rw [hroll]
  refine ⟨hfaces, ?_⟩
  have hlow := g.bonus.le_toInt
  have hhigh := g.bonus.toInt_lt
  unfold Outcome.sumFaces
  rw [hfaces.foldl_toInt, Int64.toInt_zero, hsum, Int32.toInt_toInt64,
    Word.fits_iff]
  omega

/-- As many dice with as many sides as a word can tell have a highest
total past the range. It is stopped, and bounds what the dice roll. -/
theorem bounds_enclose_where_stopped :
    ∃ g : Group, (Die.group g).highest.toInt < g.exactHighest
      ∧ ∃ words,
        ((Die.group g).roll (WordList.ofList words)).1.SumsFit
          ∧ (Die.group g).Encloses
            ((Die.group g).roll (WordList.ofList words)).1.total := by
  -- said of all groups, so that nothing is rolled to find out
  have hroll : ∀ g : Group, ∃ words,
      ((Die.group g).roll (WordList.ofList words)).1.SumsFit
        ∧ (Die.group g).Encloses
          ((Die.group g).roll (WordList.ofList words)).1.total := by
    intro g
    obtain ⟨words, hfit⟩ := exists_sumsFit g
    exact ⟨words, hfit, (bounds_enclose_totals (.group g)).2 _ _ hfit⟩
  exact ⟨⟨⟨4294967295, by decide⟩, ⟨4294967295, by decide⟩, -1⟩, by decide,
    hroll _⟩

end Die

end DiceNotation
