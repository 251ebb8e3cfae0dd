/-
Which texts are accepted, and with what meaning. A text is a sentence
when its tokens are a phrase of the grammar; reading it gives exactly
the meaning of the phrase, and a text that is no sentence is rejected
with all of it carried along.

Both entry points run one rule on the whole text and then ask whether
only blanks are left. That question is the same in either spelling, with
the leading blanks cut or with both ends trimmed (`trim_eq_nil_iff`),
and in tokens it says that the row is used up (`scan_eq_nil_iff`). So a
result follows from the two halves of `Proofs.Notation.Phrase`: soundness
gives the phrase, completeness the run of the rule to the end of the
text.
-/
import DiceNotation.Proofs.Notation.Phrase
import DiceNotation.Rolls
import Mathlib.Data.List.TakeWhile

namespace DiceNotation

open Token

-- ============================================================ sentences

/-- Whether a text is a roll list that means some dice. -/
def Sentence (input : String) (dice : List Die) : Prop :=
  ∃ tokens, scan input.toList = some tokens ∧ RollListPhrase tokens dice

/-- Whether a text is one die without repeat count. -/
def DieSentence (input : String) (die : Die) : Prop :=
  ∃ tokens, scan input.toList = some tokens ∧ DiePhrase tokens die

-- ======================================================== nothing left

namespace Text

/-- A text of blanks alone is cut down to nothing, and no other. -/
theorem skipBlank_eq_nil_iff {text : List Char} :
    skipBlank text = [] ↔ ∀ c ∈ text, isBlank c = true := by
  unfold skipBlank
  exact List.dropWhile_eq_nil_iff

/-- Trimming leaves nothing exactly when cutting the leading blanks
does. -/
theorem trim_eq_nil_iff {text : List Char} :
    trim text = [] ↔ skipBlank text = [] := by
  unfold trim dropTrailingBlank
  rw [List.reverse_eq_nil_iff, skipBlank_eq_nil_iff]
  constructor
  · intro h
    rw [← skipBlank_skipBlank, skipBlank_eq_nil_iff]
    intro c hc
    exact h c (List.mem_reverse.2 hc)
  · intro h
    rw [h]
    simp

end Text

/-- What a complete rule reads at the end of a row leaves only blanks
behind. -/
theorem Reader.Complete.run {α : Type} {read : Reader α}
    {Phrase : List Token → α → Prop} {follow : List Token}
    (hread : Complete read Phrase follow) {text : List Char} {v : α}
    {tokens : List Token} (hphrase : Phrase tokens v)
    (hscan : scan text = some tokens) :
    ∃ rest, read text = some (v, rest) ∧ Text.skipBlank rest = [] := by
  rw [← List.append_nil tokens] at hscan
  obtain ⟨rest, h, hrest⟩ := hread hphrase (goesOn_nil _) hscan
  exact ⟨rest, h, scan_eq_nil_iff.1 hrest⟩

/-- What a sound rule reads with only blanks behind is all the row. -/
theorem Reader.Sound.whole {α : Type} {read : Reader α}
    {Phrase : List Token → α → Prop} (hread : Sound read Phrase)
    {text rest : List Char} {v : α} (h : read text = some (v, rest))
    (hrest : Text.skipBlank rest = []) :
    ∃ tokens, scan text = some tokens ∧ Phrase tokens v := by
  obtain ⟨tokens, hphrase, hscan⟩ := hread h
  rw [scan_eq_nil_iff.2 hrest, Option.map_some, List.append_nil] at hscan
  exact ⟨tokens, hscan, hphrase⟩

-- ============================================================== one die

/-- A text is read as a die exactly when it is a sentence of one. -/
theorem Die.parse_eq_ok_iff {input : String} {d : Die} :
    Die.parse input = .ok d ↔ DieSentence input d := by
  rw [Die.parse_eq]
  constructor
  · intro h
    split at h
    · cases h
    · next found rest hread =>
        split at h
        · next hrest =>
            cases h
            rw [List.isEmpty_iff, Text.trim_eq_nil_iff] at hrest
            exact die_sound.whole hread hrest
        · cases h
  · intro h
    obtain ⟨tokens, hscan, hphrase⟩ := h
    obtain ⟨rest, hread, hrest⟩ := die_complete.run hphrase hscan
    rw [hread]
    simp only [Text.trim_eq_nil_iff.2 hrest, List.isEmpty_nil, if_true]

/-- A text that is not read as a die is carried in its rejection. -/
theorem Die.input_of_parse_eq_error {input : String}
    {rejection : Rejection} (h : Die.parse input = .error rejection) :
    rejection.input = input := by
  rw [Die.parse_eq] at h
  split at h
  · cases h
    rfl
  · split at h
    · cases h
    · cases h
      rfl

-- =========================================================== roll lists

namespace Rolls

/-- A text is read as a roll list exactly when it is a sentence. -/
theorem parse_eq_ok_iff {input : String} {dice : List Die} :
    parse input = .ok dice ↔ Sentence input dice := by
  rw [parse_eq]
  constructor
  · intro h
    split at h
    · cases h
    · next found rest hread =>
        simp only at h
        split at h
        · next hrest =>
            cases h
            rw [List.isEmpty_iff] at hrest
            exact rollList_sound.whole hread hrest
        · cases h
  · intro h
    obtain ⟨tokens, hscan, hphrase⟩ := h
    obtain ⟨rest, hread, hrest⟩ := rollList_complete.run hphrase hscan
    rw [hread]
    simp only [hrest, List.isEmpty_nil, if_true]

/-- A text that is not read as a roll list is carried in its
rejection. -/
theorem input_of_parse_eq_error {input : String} {rejection : Rejection}
    (h : parse input = .error rejection) : rejection.input = input := by
  rw [parse_eq] at h
  split at h
  · cases h
    rfl
  · simp only at h
    split at h
    · cases h
    · cases h
      rfl

/-- Reading a text gives the dice that it means as a sentence, and a
text that means none is rejected and carried as it was given. -/
theorem parse_accepts_exactly_sentences (input : String) :
    (∀ dice, parse input = .ok dice ↔ Sentence input dice)
      ∧ ((∀ dice, ¬ Sentence input dice) →
        ∃ rest, parse input = .error ⟨input, rest⟩) := by
  refine ⟨fun dice => parse_eq_ok_iff, ?_⟩
  intro hnone
  cases hparse : parse input with
  | ok dice => exact absurd (parse_eq_ok_iff.1 hparse) (hnone dice)
  | error rejection =>
      obtain ⟨carried, rest⟩ := rejection
      cases input_of_parse_eq_error hparse
      exact ⟨rest, rfl⟩

end Rolls

end DiceNotation
