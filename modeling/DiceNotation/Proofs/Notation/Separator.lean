/-
Texts with a semicolon between two parts. Whatever the parts hold, the
whole is read exactly if both are, each for itself, and it then means
the dice of the one and behind them those of the other. Nothing crosses
the semicolon: no numeral runs over it, no rule reads on behind it, and
what is left over in front of it is not made good by what follows.

# Why reading the parts apart is the same

On the text itself this would be an argument about a reader that stops,
goes back and tries again. On tokens there is nothing to stop: a text
scans to the tokens of its parts around the one for the semicolon
(`scan_append_char`), and since no roll has such a token in it
(`RollPhrase.semicolon_not_mem`), a list of rolls can only be cut there
between two rolls (`RollListPhrase.append_iff`). That sentences are what
is read says the rest.
-/
import DiceNotation.Proofs.Notation.Acceptance
import DiceNotation.Proofs.Roll.Sequence
import Mathlib.Data.List.Lattice

namespace DiceNotation

open Token Decimal

-- ============================================================== scanning

/-- The digits in front of another character end there. -/
theorem digits_append_cons {c : Char} (hc : c.isDigit = false)
    (text rest : List Char) :
    leadingDigits (text ++ c :: rest) = leadingDigits text
      ∧ afterDigits (text ++ c :: rest) = afterDigits text ++ c :: rest := by
  unfold leadingDigits afterDigits
  induction text with
  | nil => simp [hc]
  | cons d text ih =>
      by_cases hd : d.isDigit = true
      · simpa [hd] using ih
      · simp [hd]

/-- Two rows around a token, with one more token in front of both. -/
theorem map_bind_around (token next : Token)
    (front back : Option (List Token)) :
    (front.bind fun tokens => back.map (tokens ++ token :: ·)).map (next :: ·)
      = (front.map (next :: ·)).bind fun tokens =>
          back.map (tokens ++ token :: ·) := by
  cases front with
  | none => rfl
  | some tokens =>
      show Option.map _ (back.map _) = back.map _
      rw [Option.map_map]
      rfl

/-- A character that is a token parts the tokens of what stands before
it from those of what follows. -/
theorem scan_append_char {c : Char} {token : Token}
    (hc : ofChar? c = some token) (text rest : List Char) :
    scan (text ++ c :: rest)
      = (scan text).bind fun tokens =>
          (scan rest).map (tokens ++ token :: ·) := by
  induction text using scan.induct with
  | case1 =>
      rw [List.nil_append, scan_char hc, scan_nil]
      rfl
  | case2 d text hblank ih =>
      rw [List.cons_append, scan_blank hblank, scan_blank hblank, ih]
  | case3 d text hblank hdigit ih =>
      obtain ⟨hlead, hafter⟩ :=
        digits_append_cons (not_blank_of_ofChar? hc).2 text rest
      rw [List.cons_append, scan_digit hdigit, scan_digit hdigit, hlead,
        hafter, ih, map_bind_around]
  | case4 d text hblank hdigit hnone =>
      rw [List.cons_append, scan, scan]
      simp [hblank, hdigit, hnone]
  | case5 d text hblank hdigit first hfirst ih =>
      rw [List.cons_append, scan_char hfirst, scan_char hfirst, ih,
        map_bind_around]

-- ======================================================= tokens of a roll

/-- The tokens that stand around dice and never in one. -/
def Token.outer : List Token := [.semicolon, .times]

theorem SignedPhrase.disjoint_outer {tokens : List Token} {n : Int}
    (h : SignedPhrase tokens n) : tokens.Disjoint outer := by
  cases h with
  | bare n => simp [outer]
  | plus n => simp [outer]
  | minus n => simp [outer]

theorem BonusPhrase.disjoint_outer {tokens : List Token} {bonus : Int32}
    (h : BonusPhrase tokens bonus) : tokens.Disjoint outer := by
  cases h with
  | absent => simp
  | given number => exact number.disjoint_outer

theorem GroupPhrase.disjoint_outer {tokens : List Token} {g : Group}
    (h : GroupPhrase tokens g) : tokens.Disjoint outer := by
  obtain ⟨hcount, hbonus⟩ := h
  have hback := hbonus.disjoint_outer
  obtain rfl | ⟨n, rfl⟩ := hcount.tokens_eq
  · simpa [outer] using hback
  · simpa [outer] using hback

theorem ChainPhrase.disjoint_outer {tokens : List Token} {die : Die}
    (h : ChainPhrase tokens die) : tokens.Disjoint outer := by
  induction h with
  | group only => exact only.disjoint_outer
  | join head _ ih =>
      rw [List.disjoint_append_left, List.disjoint_cons_left]
      exact ⟨head.disjoint_outer, by simp [outer], ih⟩

theorem DiePhrase.disjoint_outer {tokens : List Token} {die : Die}
    (h : DiePhrase tokens die) : tokens.Disjoint outer :=
  h.chain.disjoint_outer

/-- No semicolon stands in a roll. -/
theorem RollPhrase.semicolon_not_mem {tokens : List Token}
    {dice : List Die} (h : RollPhrase tokens dice) :
    .semicolon ∉ tokens := by
  obtain @⟨front, back, times, die, hcount, hdie⟩ := h
  have hback : .semicolon ∉ back := fun hmem =>
    hdie.disjoint_outer hmem (by simp [outer])
  cases hcount with
  | absent => simpa using hback
  | given bound => simpa using hback

-- ============================================================= roll lists

/-- Two roll lists around a semicolon are one. -/
theorem RollListPhrase.append {first second : List Token}
    {front back : List Die} (hfront : RollListPhrase first front)
    (hback : RollListPhrase second back) :
    RollListPhrase (first ++ .semicolon :: second) (front ++ back) := by
  induction hfront with
  | last only => exact .more only hback
  | more head _ ih =>
      rw [List.append_assoc, List.append_assoc, List.cons_append]
      exact .more head ih

/-- A roll list with a semicolon in it is two roll lists around it. The
semicolon stands behind the first roll or further on, since no roll has
one in it. -/
theorem RollListPhrase.exists_of_append {first second : List Token}
    {dice : List Die}
    (h : RollListPhrase (first ++ .semicolon :: second) dice) :
    ∃ front back, RollListPhrase first front
      ∧ RollListPhrase second back ∧ dice = front ++ back := by
  generalize htokens : first ++ .semicolon :: second = tokens at h
  induction h generalizing first with
  | last only =>
      refine absurd ?_ only.semicolon_not_mem
      rw [← htokens]
      simp
  | @more head rest dice others roll tail ih =>
      rcases List.append_eq_append_iff.1 htokens with
        ⟨between, hhead, hrest⟩ | ⟨between, hfirst, hrest⟩
      · cases between with
        | nil =>
            rw [List.append_nil] at hhead
            injection hrest with _ hsecond
            rw [← hhead, hsecond]
            exact ⟨dice, others, .last roll, tail, rfl⟩
        | cons token between =>
            -- the semicolon would stand in the first roll
            injection hrest with htoken _
            refine absurd ?_ roll.semicolon_not_mem
            rw [hhead, ← htoken]
            simp
      · cases between with
        | nil =>
            rw [List.append_nil] at hfirst
            injection hrest with _ hsecond
            rw [hfirst, ← hsecond]
            exact ⟨dice, others, .last roll, tail, rfl⟩
        | cons token between =>
            injection hrest with htoken hrest
            obtain ⟨front, back, hfront, hback, rfl⟩ := ih hrest.symm
            refine ⟨dice ++ front, back, ?_, hback,
              (List.append_assoc ..).symm⟩
            rw [hfirst, ← htoken]
            exact .more roll hfront

/-- Around a semicolon a roll list is two. -/
theorem RollListPhrase.append_iff {first second : List Token}
    {dice : List Die} :
    RollListPhrase (first ++ .semicolon :: second) dice
      ↔ ∃ front back, RollListPhrase first front
        ∧ RollListPhrase second back ∧ dice = front ++ back := by
  constructor
  · exact RollListPhrase.exists_of_append
  · intro h
    obtain ⟨front, back, hfront, hback, rfl⟩ := h
    exact hfront.append hback

-- ================================================================= texts

/-- The tokens of two texts around a semicolon. -/
theorem scan_append_semicolon (a b : String) :
    scan (a ++ ";" ++ b).toList
      = (scan a.toList).bind fun tokens =>
          (scan b.toList).map (tokens ++ .semicolon :: ·) := by
  have hlist : (a ++ ";" ++ b).toList = a.toList ++ ';' :: b.toList := by
    simp
  rw [hlist, scan_append_char (c := ';') rfl]

/-- Two texts around a semicolon are a sentence exactly if both are. -/
theorem sentence_append_semicolon {a b : String} {dice : List Die} :
    Sentence (a ++ ";" ++ b) dice
      ↔ ∃ front back, Sentence a front ∧ Sentence b back
        ∧ dice = front ++ back := by
  unfold Sentence
  rw [scan_append_semicolon]
  constructor
  · intro h
    obtain ⟨tokens, hscan, hphrase⟩ := h
    obtain ⟨first, hfirst, hscan⟩ := Option.bind_eq_some_iff.1 hscan
    obtain ⟨second, hsecond, rfl⟩ := Option.map_eq_some_iff.1 hscan
    obtain ⟨front, back, hfront, hback, hdice⟩ :=
      RollListPhrase.append_iff.1 hphrase
    exact ⟨front, back, ⟨first, hfirst, hfront⟩, ⟨second, hsecond, hback⟩,
      hdice⟩
  · intro h
    obtain ⟨front, back, ⟨first, hfirst, hfront⟩, ⟨second, hsecond, hback⟩,
      hdice⟩ := h
    refine ⟨first ++ .semicolon :: second, ?_,
      RollListPhrase.append_iff.2 ⟨front, back, hfront, hback, hdice⟩⟩
    rw [hfirst, hsecond]
    rfl

namespace Rolls

/-- Two texts around a semicolon are read exactly if both are. -/
theorem parse_semicolon_eq_ok_iff {a b : String} {dice : List Die} :
    parse (a ++ ";" ++ b) = .ok dice
      ↔ ∃ front back, parse a = .ok front ∧ parse b = .ok back
        ∧ dice = front ++ back := by
  simp only [parse_eq_ok_iff]
  exact sentence_append_semicolon

/-- If one of two texts is rejected, so are the two around a
semicolon. -/
theorem parse_semicolon_eq_error {a b : String}
    (h : (∃ rejection, parse a = .error rejection)
      ∨ ∃ rejection, parse b = .error rejection) :
    ∃ rest, parse (a ++ ";" ++ b) = .error ⟨a ++ ";" ++ b, rest⟩ := by
  cases hparse : parse (a ++ ";" ++ b) with
  | ok dice =>
      obtain ⟨front, back, hfront, hback, -⟩ :=
        parse_semicolon_eq_ok_iff.1 hparse
      obtain ⟨rejection, hrejected⟩ | ⟨rejection, hrejected⟩ := h
      · rw [hfront] at hrejected
        cases hrejected
      · rw [hback] at hrejected
        cases hrejected
  | error rejection =>
      obtain ⟨carried, rest⟩ := rejection
      cases input_of_parse_eq_error hparse
      exact ⟨rest, rfl⟩

/-- Two texts around a semicolon are read exactly if both are, as the
dice of the first and then those of the second. They are rolled as the
second after the first, from what it leaves of the source; and if one of
them is rejected, so is the whole, and the source is left alone. -/
theorem semicolon_law (a b : String) :
    (∀ dice, parse (a ++ ";" ++ b) = .ok dice
      ↔ ∃ front back, parse a = .ok front ∧ parse b = .ok back
        ∧ dice = front ++ back)
    ∧ ∀ (σ : Type) [WordSource σ] (source : σ),
      (∀ first middle second last,
        rollText a source = (.ok first, middle) →
        rollText b middle = (.ok second, last) →
        rollText (a ++ ";" ++ b) source = (.ok (first ++ second), last))
      ∧ ((∃ rejection, parse a = .error rejection)
          ∨ (∃ rejection, parse b = .error rejection) →
        ∃ rest, rollText (a ++ ";" ++ b) source
          = (.error ⟨a ++ ";" ++ b, rest⟩, source)) := by
  refine ⟨fun dice => parse_semicolon_eq_ok_iff, ?_⟩
  intro σ _ source
  constructor
  · intro first middle second last hfirst hsecond
    obtain ⟨front, hfront, hrollFront⟩ := exists_parse_of_rollText hfirst
    obtain ⟨back, hback, hrollBack⟩ := exists_parse_of_rollText hsecond
    have hwhole : parse (a ++ ";" ++ b) = .ok (front ++ back) :=
      parse_semicolon_eq_ok_iff.2 ⟨front, back, hfront, hback, rfl⟩
    rw [rollText_of_ok hwhole, roll_append, hrollFront, hrollBack]
  · intro hrejected
    obtain ⟨rest, hwhole⟩ := parse_semicolon_eq_error hrejected
    exact ⟨rest, rollText_of_error hwhole source⟩

end Rolls

end DiceNotation
