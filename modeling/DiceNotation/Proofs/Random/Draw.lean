/-
Drawing, seen from the words of a source. To draw a face is to go on
from a place among the words: words that the die does not use are passed
over, and the first one that it uses gives the face. The source that is
left stands right behind that word.

A draw has a second way to end. Where all words within the patience of
the source were passed over, the next one gives the face unasked; a word
behind it would be no better, and the draw would have no end.

Faces drawn in a row stand in the order of their words: `ReadOff` goes
through both together, from one place in the source to another.
-/
import DiceNotation.Proofs.Random.Face

namespace DiceNotation

variable {σ : Type} [WordSource σ]

-- =============================================================== places

namespace WordSource

/-- To go on from a place is to go further from the start. -/
theorem after_after (source : σ) (m n : Nat) :
    after (after source m) n = after source (m + n) := by
  induction n with
  | zero => rfl
  | succ n ih =>
      show (next (after (after source m) n)).2 = _
      rw [ih]
      rfl

theorem word_after (source : σ) (m n : Nat) :
    word (after source m) n = word source (m + n) := by
  unfold word
  rw [after_after]

end WordSource

namespace Face

open WordSource (word after patience word_after after_after)

-- ============================================================= one draw

/-- How many words a draw passes over. -/
structure PassesOver (sides : Positive) (source : σ) (passed : Nat) :
    Prop where
  unused : ∀ i < passed, accepts sides.val (word source i) = false
  ended : accepts sides.val (word source passed) = true
    ∨ passed = patience source

/-- With some patience, so many words at most are passed over, and all
of them only if no word before is used. -/
theorem exists_drawWithin (sides : UInt32) (room : Nat) (source : σ) :
    ∃ passed, (∀ i < passed, accepts sides (word source i) = false)
      ∧ (accepts sides (word source passed) = true ∨ passed = room)
      ∧ drawWithin sides room source
        = (ofWord sides (word source passed),
            after source (passed + 1)) := by
  induction room generalizing source with
  | zero =>
      refine ⟨0, ?_, .inr rfl, rfl⟩
      intro i hi
      omega
  | succ room ih =>
      by_cases hused : accepts sides (word source 0) = true
      · refine ⟨0, ?_, .inl hused, ?_⟩
        · intro i hi
          omega
        · show (if accepts sides (word source 0) = true then _ else _) = _
          rw [if_pos hused]
          rfl
      · -- the first word is passed over, and the draw goes on behind it
        obtain ⟨passed, hunused, hended, hdraw⟩ := ih (after source 1)
        have hword : ∀ i, word (after source 1) i = word source (i + 1) := by
          intro i
          rw [word_after, Nat.add_comm]
        refine ⟨passed + 1, ?_, ?_, ?_⟩
        · intro i hi
          cases i with
          | zero => simpa using hused
          | succ i =>
              rw [← hword]
              exact hunused i (by omega)
        · rw [← hword]
          exact hended.imp_right fun hroom => by rw [hroom]
        · show (if accepts sides (word source 0) = true then _
            else drawWithin sides room (after source 1)) = _
          rw [if_neg hused, hdraw, hword, after_after, Nat.add_comm 1]

/-- A draw gives the face of the word behind those it passes over, and
leaves the source behind that word. -/
theorem exists_draw (sides : Positive) (source : σ) :
    ∃ passed, PassesOver sides source passed
      ∧ draw sides source
        = (ofWord sides.val (word source passed),
            after source (passed + 1)) := by
  obtain ⟨passed, hunused, hended, hdraw⟩ :=
    exists_drawWithin sides.val (patience source) source
  exact ⟨passed, ⟨hunused, hended⟩, hdraw⟩

example : draw ⟨3, by decide⟩ (WordList.ofList [1431655765, 4294967295])
    = (3, ⟨[], 2⟩) := by
  decide

/-- Where a draw ends for want of patience alone, no word of the source is
ever used. -/
theorem PassesOver.used_or_never [LawfulWordSource σ] {sides : Positive}
    {source : σ} {passed : Nat} (h : PassesOver sides source passed) :
    accepts sides.val (word source passed) = true
      ∨ ∀ n, accepts sides.val (word source n) = false := by
  obtain ⟨hunused, hused | rfl⟩ := h
  · exact .inl hused
  · exact .inr (LawfulWordSource.patience_enough source _ hunused)

-- ================================================================ a row

/-- The faces of dice in a row, read off the words of a source from one
place to another. Each die passes words over, and shows the face of the
word behind them. -/
inductive ReadOff (source : σ) :
    Nat → List Positive → List UInt32 → Nat → Prop
  | nil {place : Nat} : ReadOff source place [] [] place
  | cons {start passed stop : Nat} {sides : Positive}
      {row : List Positive} {faces : List UInt32}
      (first : PassesOver sides (after source start) passed)
      (others : ReadOff source (start + passed + 1) row faces stop) :
      ReadOff source start (sides :: row)
        (ofWord sides.val (word source (start + passed)) :: faces) stop

end Face

end DiceNotation
