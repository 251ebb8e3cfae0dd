/-
Rolls in normal form. What reading a text can give is bounded by the
text, keeps to the limits of the notation, and has a text of its own
that is read as exactly the same: the dice one by one in notation, with
semicolons between them.

# Counting on tokens

A roll list has one roll more than semicolons, and a roll is a die at
least once and at most 1000 times, so the number of dice lies between
two multiples of the number of rolls. The semicolons of a text are those
among its tokens, since no numeral has one (`count_of_scan`).

# Writing out

Repeat counts and spelling are lost when a text is read, and what is
left is a row of dice nested to the right. Each is what its own notation
is read as; around the semicolons, the tokens of the row are a roll list
in which every roll is one die (`rollListPhrase_tokens`).
-/
import DiceNotation.Proofs.Notation.RoundTrip
import DiceNotation.Proofs.Notation.Separator

namespace DiceNotation

open Token Decimal

-- ============================================================= counting

namespace Token

theorem ofChar?_eq_semicolon_iff {c : Char} :
    ofChar? c = some .semicolon ↔ c = ';' := by
  constructor
  · intro h
    unfold ofChar? at h
    split at h <;> first | rfl | cases h
  · rintro rfl
    rfl

/-- Digits are no tokens by themselves. -/
theorem countP_afterDigits (token : Token) (text : List Char) :
    (afterDigits text).countP (ofChar? · = some token)
      = text.countP (ofChar? · = some token) := by
  have hnone : (leadingDigits text).countP (ofChar? · = some token)
      = 0 := by
    rw [List.countP_eq_zero]
    intro c hc htoken
    have hdigit : c.isDigit = true := List.mem_takeWhile_imp hc
    have hother := (not_blank_of_ofChar? (of_decide_eq_true htoken)).2
    rw [hdigit] at hother
    cases hother
  calc (afterDigits text).countP (ofChar? · = some token)
      = (leadingDigits text ++ afterDigits text).countP
          (ofChar? · = some token) := by
        rw [List.countP_append, hnone, Nat.zero_add]
    _ = text.countP (ofChar? · = some token) := by
        rw [leadingDigits_append_afterDigits]

/-- A token of one character is among the tokens of a text as often as
its characters are in the text. -/
theorem count_of_scan {token : Token} (hsingle : ∀ n, token ≠ .number n)
    {text : List Char} {tokens : List Token}
    (h : scan text = some tokens) :
    tokens.count token = text.countP (ofChar? · = some token) := by
  induction text using scan.induct generalizing tokens with
  | case1 =>
      rw [scan_nil] at h
      cases h
      rfl
  | case2 c text hblank ih =>
      have hother : ofChar? c ≠ some token := by
        intro hc
        rw [(not_blank_of_ofChar? hc).1] at hblank
        cases hblank
      rw [scan_blank hblank] at h
      rw [ih h, List.countP_cons_of_neg (by simpa using hother)]
  | case3 c text hblank hdigit ih =>
      have hother : ofChar? c ≠ some token := by
        intro hc
        rw [(not_blank_of_ofChar? hc).2] at hdigit
        cases hdigit
      rw [scan_digit hdigit, Option.map_eq_some_iff] at h
      obtain ⟨more, hmore, rfl⟩ := h
      rw [List.count_cons_of_ne (hsingle _).symm, ih hmore,
        countP_afterDigits, List.countP_cons_of_neg (by simpa using hother)]
  | case4 c text hblank hdigit hnone =>
      rw [scan] at h
      simp [hblank, hdigit, hnone] at h
  | case5 c text hblank hdigit first hfirst ih =>
      rw [scan_char hfirst, Option.map_eq_some_iff] at h
      obtain ⟨more, hmore, rfl⟩ := h
      rw [List.count_cons, List.countP_cons, ih hmore, hfirst]
      simp

/-- The semicolons of a text are those among its tokens. -/
theorem count_semicolon {text : List Char} {tokens : List Token}
    (h : scan text = some tokens) :
    tokens.count .semicolon = text.count ';' := by
  rw [count_of_scan (by simp) h, List.count]
  refine List.countP_congr fun c _ => ?_
  rw [decide_eq_true_eq, ofChar?_eq_semicolon_iff, beq_iff_eq]

end Token

/-- A roll is a die once at least and 1000 times at most. -/
theorem RollPhrase.length_bounds {tokens : List Token} {dice : List Die}
    (h : RollPhrase tokens dice) : 1 ≤ dice.length ∧ dice.length ≤ 1000 := by
  obtain @⟨front, back, times, die, hcount, -⟩ := h
  rw [List.length_replicate]
  refine ⟨times.toNat_pos, ?_⟩
  cases hcount with
  | absent => decide
  | given bound => exact bound

/-- A roll list has as many rolls as semicolons, and one more. -/
theorem RollListPhrase.length_bounds {tokens : List Token}
    {dice : List Die} (h : RollListPhrase tokens dice) :
    tokens.count .semicolon + 1 ≤ dice.length
      ∧ dice.length ≤ 1000 * (tokens.count .semicolon + 1) := by
  induction h with
  | last only =>
      have hnone := List.count_eq_zero_of_not_mem only.semicolon_not_mem
      have hlength := only.length_bounds
      omega
  | more head _ ih =>
      have hnone := List.count_eq_zero_of_not_mem head.semicolon_not_mem
      have hlength := head.length_bounds
      rw [List.count_append, List.count_cons_self, List.length_append]
      omega

-- ======================================================= the normal form

/-- A die as it is read: a chain nested to the right, within the limits
of the notation. -/
structure Die.Normal (die : Die) : Prop where
  nested : die.RightNested
  groups : 1 ≤ die.groups.length ∧ die.groups.length ≤ 1000
  counts : ∀ g ∈ die.groups, 1 ≤ g.count.toNat ∧ g.count.toNat ≤ 100000
  sides : ∀ g ∈ die.groups, 1 ≤ g.sides.toNat

theorem Die.RightNested.normal {die : Die} (h : die.RightNested)
    (hlimits : die.WithinLimits) : die.Normal where
  nested := h
  groups :=
    ⟨List.length_pos_iff.2 die.groups_ne_nil, hlimits.groups_le⟩
  counts := by
    intro g hg
    exact ⟨g.count.toNat_pos,
      UInt32.le_iff_toNat_le.1 (hlimits.count_le g hg)⟩
  sides := fun g _ => g.sides.toNat_pos

-- ============================================================ writing out

/-- The tokens of a die nested to the right, within the limits, are a
die, and it is that die. -/
theorem Die.RightNested.diePhrase_tokens {die : Die}
    (h : die.RightNested) (hlimits : die.WithinLimits) :
    DiePhrase die.tokens die := by
  obtain ⟨nested, hnested, hgroups, hphrase⟩ :=
    Die.diePhrase_tokens hlimits
  rwa [hnested.eq_of_groups h hgroups] at hphrase

/-- The tokens of dice with semicolons between them are a roll list, and
it is those dice. -/
theorem rollListPhrase_tokens {dice : List Die} (hne : dice ≠ [])
    (h : ∀ die ∈ dice, die.RightNested ∧ die.WithinLimits) :
    RollListPhrase ([.semicolon].intercalate (dice.map Die.tokens))
      dice := by
  have honce : ∀ die ∈ dice, RollPhrase die.tokens [die] := by
    intro die hdie
    obtain ⟨hnested, hlimits⟩ := h die hdie
    exact .intro .absent (hnested.diePhrase_tokens hlimits)
  clear h
  induction dice with
  | nil => exact absurd rfl hne
  | cons die dice ih =>
      obtain ⟨hfirst, hothers⟩ := List.forall_mem_cons.1 honce
      cases dice with
      | nil => simpa using RollListPhrase.last hfirst
      | cons next dice =>
          have htail := ih (by simp) hothers
          rw [List.map_cons, List.map_cons, List.intercalate_cons_cons,
            List.append_assoc]
          exact .more hfirst htail

namespace Rolls

/-- Dice in notation, with semicolons between them. -/
def writtenOut (dice : List Die) : String :=
  " ; ".intercalate (dice.map Die.toString)

theorem toList_writtenOut_cons (die next : Die) (dice : List Die) :
    (writtenOut (die :: next :: dice)).toList
      = die.toString.toList
        ++ ' ' :: ';' :: ' ' :: (writtenOut (next :: dice)).toList := by
  unfold writtenOut
  rw [List.map_cons, List.map_cons, String.toList_intercalate,
    String.toList_intercalate, List.map_cons, List.map_cons,
    List.intercalate_cons_cons, List.append_assoc]
  rfl

/-- Dice that are written out scan to their tokens, with semicolons
between them. -/
theorem scan_writtenOut (dice : List Die) :
    scan (writtenOut dice).toList
      = some ([.semicolon].intercalate (dice.map Die.tokens)) := by
  induction dice with
  | nil => exact scan_nil
  | cons die dice ih =>
      cases dice with
      | nil => simpa [writtenOut] using die.scan_toString
      | cons next dice =>
          rw [toList_writtenOut_cons, Die.toList_toString,
            die.scan_written (noDigitAhead_cons (c := ' ') rfl _),
            scan_blank rfl, scan_char (c := ';') rfl, scan_blank rfl, ih]
          rfl

/-- Dice that were read are read again from what they are written out
as. -/
theorem parse_writtenOut {dice : List Die} (hne : dice ≠ [])
    (h : ∀ die ∈ dice, die.RightNested ∧ die.WithinLimits) :
    parse (writtenOut dice) = .ok dice :=
  parse_eq_ok_iff.2
    ⟨_, scan_writtenOut dice, rollListPhrase_tokens hne h⟩

/-- The normal form of what is read. A text with some number of
semicolons is read as one die more than that at least, and as a thousand
times as many at most; each die is a chain nested to the right, within
the limits of the notation; and written out with semicolons between
them, the dice are read as themselves. -/
theorem normal_form {input : String} {dice : List Die}
    (h : parse input = .ok dice) :
    dice ≠ []
      ∧ input.toList.count ';' + 1 ≤ dice.length
      ∧ dice.length ≤ 1000 * (input.toList.count ';' + 1)
      ∧ (∀ die ∈ dice, die.Normal)
      ∧ parse (writtenOut dice) = .ok dice := by
  obtain ⟨tokens, hscan, hphrase⟩ := parse_eq_ok_iff.1 h
  obtain ⟨hleast, hmost⟩ := hphrase.length_bounds
  rw [count_semicolon hscan] at hleast hmost
  have hne : dice ≠ [] := by
    rintro rfl
    simp at hleast
  have hshape := hphrase.shape
  refine ⟨hne, hleast, hmost, ?_, parse_writtenOut hne hshape⟩
  intro die hdie
  obtain ⟨hnested, hlimits⟩ := hshape die hdie
  exact hnested.normal hlimits

/-- A repeat count is written out as dice. -/
theorem normal_form_of_repeated :
    ∃ dice, parse "2X d6+0; 03 d 8 -5&d4" = .ok dice
      ∧ writtenOut dice = "1d6 ; 1d6 ; 3d8-5 & 1d4"
      ∧ parse "1d6 ; 1d6 ; 3d8-5 & 1d4" = .ok dice := by
  let six : Die := .group ⟨⟨1, by decide⟩, ⟨6, by decide⟩, 0⟩
  let joined : Die := .join (.group ⟨⟨3, by decide⟩, ⟨8, by decide⟩, -5⟩)
    (.group ⟨⟨1, by decide⟩, ⟨4, by decide⟩, 0⟩)
  have hparse : parse "2X d6+0; 03 d 8 -5&d4" = .ok [six, six, joined] := by
    decide +kernel
  have hwritten : writtenOut [six, six, joined]
      = "1d6 ; 1d6 ; 3d8-5 & 1d4" := by
    decide +kernel
  obtain ⟨-, -, -, -, hagain⟩ := normal_form hparse
  rw [hwritten] at hagain
  exact ⟨_, hparse, hwritten, hagain⟩

end Rolls

end DiceNotation
