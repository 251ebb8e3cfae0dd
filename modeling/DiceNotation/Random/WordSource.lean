/-
Sources of random words. A source is a state that gives a 32-bit word
and its next state; what the words are is its own affair, and nothing
random is left once the state is fixed.

Whoever draws until a word pleases needs to know when to stop. The
patience of a state is a number of words after which nothing new comes:
a word that is not among that many will not come later either. Drawing
is therefore total, and gives up only where it would draw for ever.
-/

namespace DiceNotation

/-- A state that gives words. -/
class WordSource (σ : Type) where
  /-- The next word, and the state behind it. -/
  next : σ → UInt32 × σ
  /-- How many words show all that the state will ever give. -/
  patience : σ → Nat

namespace WordSource

variable {σ : Type} [WordSource σ]

/-- The state behind the first words of a source. -/
def after (source : σ) : Nat → σ
  | 0 => source
  | n + 1 => (next (after source n)).2

/-- The word that a source gives after the first so many. -/
def word (source : σ) (index : Nat) : UInt32 :=
  (next (after source index)).1

end WordSource

/-- A source whose patience is enough: a property that no word has
within the patience of a state is one that no later word has. -/
class LawfulWordSource (σ : Type) [WordSource σ] : Prop where
  patience_enough : ∀ (source : σ) (good : UInt32 → Bool),
    (∀ n < WordSource.patience source,
      good (WordSource.word source n) = false) →
    ∀ n, good (WordSource.word source n) = false

end DiceNotation
