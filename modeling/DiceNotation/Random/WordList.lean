/-
A given list of words as a source: the words of the list in order, then
zero for ever. The state also counts the words taken, those past the end
of the list included.

One word more than the list has left shows all that will ever come: the
words left and the zero behind them.
-/
import DiceNotation.Random.WordSource

namespace DiceNotation

/-- A list of words, partly taken. -/
structure WordList where
  /-- The words not taken yet. -/
  pending : List UInt32
  /-- How many words were taken. -/
  taken : Nat
deriving DecidableEq

namespace WordList

/-- A list of words of which none is taken. -/
def ofList (words : List UInt32) : WordList := ⟨words, 0⟩

/-- Takes a word: the first one left, or zero. -/
def next (source : WordList) : UInt32 × WordList :=
  match source.pending with
  | [] => (0, ⟨[], source.taken + 1⟩)
  | word :: pending => (word, ⟨pending, source.taken + 1⟩)

instance : WordSource WordList where
  next := next
  patience source := source.pending.length + 1

/-- A list from which words were taken has lost them, and has counted
them. -/
theorem after_eq (source : WordList) (n : Nat) :
    WordSource.after source n
      = ⟨source.pending.drop n, source.taken + n⟩ := by
  induction n with
  | zero => rfl
  | succ n ih =>
      show (next (WordSource.after source n)).2 = _
      rw [ih, ← List.drop_drop]
      unfold next
      cases source.pending.drop n with
      | nil => rfl
      | cons word pending => rfl

/-- The words that a list gives are those left in it, then zeros. -/
theorem word_eq (source : WordList) (n : Nat) :
    WordSource.word source n = source.pending.getD n 0 := by
  show (next (WordSource.after source n)).1 = _
  rw [after_eq, List.getD_eq_getElem?_getD, ← List.head?_drop]
  unfold next
  cases source.pending.drop n with
  | nil => rfl
  | cons word pending => rfl

instance : LawfulWordSource WordList where
  patience_enough := by
    intro source good h n
    by_cases hn : n < source.pending.length + 1
    · exact h n hn
    · have hend := h source.pending.length (Nat.lt_succ_self _)
      rw [word_eq] at hend ⊢
      simp only [List.getD] at hend ⊢
      rw [List.getElem?_eq_none (Nat.le_refl _)] at hend
      rw [List.getElem?_eq_none (by omega)]
      exact hend

end WordList

end DiceNotation
