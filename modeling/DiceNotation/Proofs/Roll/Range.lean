/-
The range of totals of dice that were read. Within the limits of the
notation neither the bounds of a die nor the sums of a roll ever meet an
end of the 64-bit range; what remains is arithmetic over the groups, and
there the totals that lists of words roll are exactly the integers from
the lowest total to the highest.
-/
import DiceNotation.Proofs.Roll.Total

namespace DiceNotation

namespace Die

/-- Within the limits every sum of a roll fits, and the total is that of
the integers. -/
theorem WithinLimits.roll_total {die : Die} (h : die.WithinLimits)
    {σ : Type} [WordSource σ] (source : σ) :
    (die.roll source).1.total.toInt = (die.roll source).1.exactTotal :=
  (die.roll_shows source).total_toInt
    ((die.roll_shows source).sumsFit h)

/-- Within the limits the totals that lists of words roll are all the
integers between the exact bounds, and no others. -/
theorem WithinLimits.exists_words_iff {die : Die} (h : die.WithinLimits)
    {t : Int} :
    (∃ words, (die.roll (WordList.ofList words)).1.total.toInt = t)
      ↔ die.exactLowest ≤ t ∧ t ≤ die.exactHighest := by
  constructor
  · intro h
    obtain ⟨words, rfl⟩ := h
    rw [h.roll_total]
    exact (die.roll_shows _).exactTotal_bounds
  · intro h
    obtain ⟨hlow, hhigh⟩ := h
    obtain ⟨outcome, hshows, htotal⟩ := die.exists_shows hlow hhigh
    obtain ⟨words, hroll⟩ := shows_iff_exists_words.1 hshows
    refine ⟨words, ?_⟩
    rw [h.roll_total, hroll, htotal]

/-- The bounds of a die that was read are exact sums over its groups,
formed without a step being stopped; no sum of a roll leaves the range,
whatever the source; and the totals that lists of words roll are exactly
the integers from the lowest total to the highest. -/
theorem total_range {die : Die} (h : die.IsRead) :
    die.BoundsFit
      ∧ die.lowest.toInt = die.exactLowest
      ∧ die.highest.toInt = die.exactHighest
      ∧ (∀ (σ : Type) [WordSource σ] (source : σ),
        (die.roll source).1.SumsFit)
      ∧ ∀ t : Int,
        (∃ words, (die.roll (WordList.ofList words)).1.total.toInt = t)
          ↔ die.lowest.toInt ≤ t ∧ t ≤ die.highest.toInt := by
  have hlimits := h.shape.2
  have hfit := hlimits.boundsFit
  obtain ⟨hlowest, hhighest⟩ := hfit.toInt
  refine ⟨hfit, hlowest, hhighest, ?_, ?_⟩
  · intro σ _ source
    exact (die.roll_shows source).sumsFit hlimits
  · intro t
    rw [hlowest, hhighest]
    exact hlimits.exists_words_iff

/-- Two dice less three, joined with a die with four sides, total each
number from zero to thirteen. -/
theorem total_range_of_joined :
    ∃ die, Die.parse "2d6-3 & d4" = .ok die
      ∧ ∀ t : Int,
        (∃ words, (die.roll (WordList.ofList words)).1.total.toInt = t)
          ↔ 0 ≤ t ∧ t ≤ 13 := by
  let die : Die :=
    .join (.group ⟨⟨2, by decide⟩, ⟨6, by decide⟩, -3⟩)
      (.group ⟨⟨1, by decide⟩, ⟨4, by decide⟩, 0⟩)
  have hparse : Die.parse "2d6-3 & d4" = .ok die := by rfl
  obtain ⟨-, -, -, -, hrange⟩ := total_range (.inl ⟨_, hparse⟩)
  have hlowest : die.lowest.toInt = 0 := by decide
  have hhighest : die.highest.toInt = 13 := by decide
  rw [hlowest, hhighest] at hrange
  exact ⟨die, hparse, hrange⟩

end Die

end DiceNotation
