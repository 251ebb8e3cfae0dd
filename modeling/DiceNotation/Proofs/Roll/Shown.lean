/-
What a die can show. `Shows` relates a die to its outcomes without a
source: same shape, as many faces in each group as it has dice, each of
them a face of its sides, and totals formed by the two builders.

Rolling is sound and complete for it. From whatever source, a die is
rolled to something it can show; and all that it can show is rolled from
some list of words, in front of any further words and without touching
these. The second is what the join needs, whose right side takes its
words where the left side stopped.
-/
import DiceNotation.Proofs.Random.Face
import DiceNotation.Roll

namespace DiceNotation

-- ============================================================== shown

/-- The outcomes a die can show. -/
inductive Die.Shows : Die → Outcome → Prop
  | group {g : Group} {faces : List UInt32}
      (length : faces.length = g.count.toNat)
      (on : ∀ face ∈ faces, Face.On g.sides face) :
      Shows (.group g) (.ofFaces faces g.bonus)
  | join {left right : Die} {leftOutcome rightOutcome : Outcome}
      (onLeft : Shows left leftOutcome)
      (onRight : Shows right rightOutcome) :
      Shows (.join left right) (.ofSides leftOutcome rightOutcome)

-- ============================================================ soundness

namespace Die

section Source

variable {σ : Type} [WordSource σ]

/-- A group rolls its faces and adds them up. -/
@[simp] theorem roll_group (g : Group) (source : σ) :
    (Die.group g).roll source
      = (.ofFaces (Face.drawMany g.sides g.count.toNat source).1 g.bonus,
          (Face.drawMany g.sides g.count.toNat source).2) := rfl

/-- A join rolls its left side, then its right side with what is left. -/
@[simp] theorem roll_join (left right : Die) (source : σ) :
    (Die.join left right).roll source
      = (.ofSides (left.roll source).1
            (right.roll (left.roll source).2).1,
          (right.roll (left.roll source).2).2) := rfl

/-- A die is rolled to something it can show. -/
theorem roll_shows (die : Die) (source : σ) :
    die.Shows (die.roll source).1 := by
  induction die generalizing source with
  | group g =>
      exact .group (Face.drawMany_length _ _ _) (Face.drawMany_on _ _ _)
  | join left right ihl ihr =>
      rw [roll_join]
      exact .join (ihl source) (ihr _)

end Source

-- ========================================================= completeness

/-- All that a die can show is rolled from some words, and the words
behind them are left. -/
theorem Shows.exists_words {die : Die} {outcome : Outcome}
    (h : die.Shows outcome) :
    ∃ words : List UInt32, ∀ (pending : List UInt32) (taken : Nat),
      die.roll (WordList.mk (words ++ pending) taken)
        = (outcome, ⟨pending, taken + words.length⟩) := by
  induction h with
  | @group g faces length on =>
      refine ⟨faces.map (Face.wordFor g.sides), ?_⟩
      intro pending taken
      rw [roll_group, ← length, Face.drawMany_wordFor g.sides on,
        List.length_map]
  | @join left right leftOutcome rightOutcome _ _ ihl ihr =>
      obtain ⟨leftWords, hleft⟩ := ihl
      obtain ⟨rightWords, hright⟩ := ihr
      refine ⟨leftWords ++ rightWords, ?_⟩
      intro pending taken
      rw [List.append_assoc, roll_join, hleft, hright, List.length_append,
        Nat.add_assoc]

/-- A die shows an outcome exactly if some list of words rolls it. -/
theorem shows_iff_exists_words {die : Die} {outcome : Outcome} :
    die.Shows outcome
      ↔ ∃ words, (die.roll (WordList.ofList words)).1 = outcome := by
  constructor
  · intro h
    obtain ⟨words, hroll⟩ := h.exists_words
    refine ⟨words, ?_⟩
    have hall := hroll [] 0
    rw [List.append_nil] at hall
    exact congrArg Prod.fst hall
  · intro h
    obtain ⟨words, rfl⟩ := h
    exact die.roll_shows _

end Die

end DiceNotation
