/-
One die read alone or as a list of one. Two readers take a whole text,
one for a die and one for a list of rolls. They agree: a text is read as
a die exactly if it is read as a list with that die alone and has no x in
it, in either case.

A list with one die is one roll, since no roll is empty, and the die once
is what a roll with no repeat count means. A repeat count of one means
the same, and only the x tells it from none. So the texts on which the
two differ are those with an x, and whether a text has one can be seen
from its tokens (`mem_of_scan`).
-/
import DiceNotation.Proofs.Notation.NormalForm

namespace DiceNotation

open Token Decimal

-- ============================================================== letters

/-- A token of one character is among the tokens of a text exactly if one
of its characters is in the text. -/
theorem Token.mem_of_scan {token : Token} (hsingle : ∀ n, token ≠ .number n)
    {text : List Char} {tokens : List Token}
    (h : scan text = some tokens) :
    token ∈ tokens ↔ ∃ c ∈ text, ofChar? c = some token := by
  rw [← List.count_pos_iff, count_of_scan hsingle h, List.countP_pos_iff]
  simp only [decide_eq_true_eq]

/-- A text has an x in it, in either case, exactly if one is among its
tokens. -/
theorem Token.times_mem_iff {text : List Char} {tokens : List Token}
    (h : scan text = some tokens) :
    .times ∈ tokens ↔ 'x' ∈ text ∨ 'X' ∈ text := by
  have hletter : ∀ c, ofChar? c = some .times ↔ c = 'x' ∨ c = 'X' := by
    intro c
    constructor
    · intro hc
      unfold ofChar? at hc
      split at hc <;> simp at hc ⊢
    · rintro (rfl | rfl)
      · rfl
      · rfl
  rw [mem_of_scan (by simp) h]
  constructor
  · rintro ⟨c, hc, htimes⟩
    rcases (hletter c).1 htimes with rfl | rfl
    · exact Or.inl hc
    · exact Or.inr hc
  · rintro (hx | hX)
    · exact ⟨'x', hx, rfl⟩
    · exact ⟨'X', hX, rfl⟩

-- ========================================================= rolls of one

/-- A die without a repeat count is a roll list of that die alone. -/
theorem DiePhrase.rollListPhrase {tokens : List Token} {die : Die}
    (h : DiePhrase tokens die) : RollListPhrase tokens [die] :=
  .last (.intro .absent h)

/-- A roll without an x that means one die is that die. -/
theorem RollPhrase.diePhrase {tokens : List Token} {die : Die}
    (h : RollPhrase tokens [die]) (htimes : .times ∉ tokens) :
    DiePhrase tokens die := by
  generalize hdice : [die] = dice at h
  obtain @⟨front, back, times, found, hcount, hdie⟩ := h
  cases hcount with
  | absent =>
      have hsame : [die] = [found] := hdice
      injection hsame with hsame _
      rw [hsame]
      exact hdie
  | given bound => exact absurd (by simp) htimes

/-- A roll list without an x that means one die is that die: there is no
room for a second roll. -/
theorem RollListPhrase.diePhrase {tokens : List Token} {die : Die}
    (h : RollListPhrase tokens [die]) (htimes : .times ∉ tokens) :
    DiePhrase tokens die := by
  generalize hdice : [die] = dice at h
  cases h with
  | last only =>
      rw [← hdice] at only
      exact only.diePhrase htimes
  | more head tail =>
      have hlength := congrArg List.length hdice
      have hhead := head.length_bounds
      have htail := tail.length_bounds
      simp only [List.length_append, List.length_singleton] at hlength
      omega

/-- To be a die is, for a row of tokens, to be a roll list of that die
alone and to have no x. -/
theorem diePhrase_iff {tokens : List Token} {die : Die} :
    DiePhrase tokens die
      ↔ RollListPhrase tokens [die] ∧ .times ∉ tokens := by
  constructor
  · intro h
    refine ⟨h.rollListPhrase, fun htimes => ?_⟩
    exact h.disjoint_outer htimes (by simp [outer])
  · rintro ⟨hlist, htimes⟩
    exact hlist.diePhrase htimes

/-- A text is read as a die exactly if it is read as a roll list of that
die alone and has no x in it. Either way of reading carries a text that
it rejects as it was given. -/
theorem Die.parse_agrees (input : String) :
    (∀ die, Die.parse input = .ok die
      ↔ Rolls.parse input = .ok [die]
        ∧ 'x' ∉ input.toList ∧ 'X' ∉ input.toList)
      ∧ (∀ rejection, Die.parse input = .error rejection →
        rejection.input = input)
      ∧ ∀ rejection, Rolls.parse input = .error rejection →
        rejection.input = input := by
  refine ⟨?_, fun _ => Die.input_of_parse_eq_error,
    fun _ => Rolls.input_of_parse_eq_error⟩
  intro die
  rw [Die.parse_eq_ok_iff, Rolls.parse_eq_ok_iff]
  constructor
  · rintro ⟨tokens, hscan, hdie⟩
    obtain ⟨hlist, htimes⟩ := diePhrase_iff.1 hdie
    rw [times_mem_iff hscan, not_or] at htimes
    exact ⟨⟨tokens, hscan, hlist⟩, htimes⟩
  · rintro ⟨⟨tokens, hscan, hlist⟩, hx⟩
    rw [← not_or, ← times_mem_iff hscan] at hx
    exact ⟨tokens, hscan, diePhrase_iff.2 ⟨hlist, hx⟩⟩

end DiceNotation
