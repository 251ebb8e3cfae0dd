/-
Texts cut where a rule has stopped. What a rule reads does not hang on
the text it leaves: without that text, or without the end of it, the rule
reads the same. So the text used up is one that the rule reads alone, to
its end and with the same value, and a rejected text becomes an accepted
one when what was left of it is taken away.

# What could go wrong, and where

A rule looks ahead in two ways. Digits are read as far as they go, so a
cut behind them changes nothing. But an optional number that was not
found may be found once a text is cut: a run of digits too long for a
word is as good as absent, and cut short it is a number. All that a cut
must spare is such a run right where the rule has stopped. This is the
side condition of the rules that end in an optional number
(`NoNumberAhead`), and it takes care of itself: inside a rule the next
part starts with a letter, and at the end of a rule stand blanks at most
where the text is cut.

Each rule is cut from its last part to its first. What a part leaves is
cut already, so the text in front of it is found cut as well, together
with the read that stops there (`Cut`).
-/
import DiceNotation.Proofs.Decimal
import DiceNotation.Proofs.Notation.Acceptance

namespace DiceNotation

open Reader Grammar Token Decimal

-- ============================================================== blanks

/-- What stands behind skipped blanks can be cut: the blanks are those of
the shorter text as well. -/
theorem Text.exists_of_skipBlank {text front tail : List Char}
    (h : skipBlank text = front ++ tail) :
    ∃ whole, text = whole ++ tail ∧ skipBlank whole = front := by
  have hsplit : text.takeWhile isBlank ++ skipBlank text = text :=
    List.takeWhile_append_dropWhile
  have hblank : ∀ c ∈ text.takeWhile isBlank, isBlank c = true :=
    fun _ hc => List.mem_takeWhile_imp hc
  have hfront : skipBlank front = front := by
    cases front with
    | nil => rfl
    | cons c front =>
        exact skipBlank_cons_of_not_blank front (not_blank_of_skipBlank h)
  refine ⟨text.takeWhile isBlank ++ front, ?_, ?_⟩
  · rw [List.append_assoc, ← h, hsplit]
  · unfold skipBlank at hfront ⊢
    rw [List.dropWhile_append_of_pos hblank, hfront]

/-- A text that is longer behind its first character has the same
character behind its blanks. -/
theorem Text.skipBlank_append {text rest : List Char} {c : Char}
    (h : skipBlank text = c :: rest) (tail : List Char) :
    skipBlank (text ++ tail) = c :: rest ++ tail := by
  unfold skipBlank at h ⊢
  rw [List.dropWhile_append, h]
  rfl

-- ========================================================= first letters

/-- No number comes next, with or without a sign. -/
def NoNumberAhead (text : List Char) : Prop :=
  unsigned text = none ∧ signed text = none

/-- No number comes next where nothing or only blanks are left. -/
theorem noNumberAhead_of_blank {text : List Char}
    (h : Text.skipBlank text = []) : NoNumberAhead text := by
  have hscan := scan_eq_nil_iff.2 h
  exact ⟨unsigned_eq_none_of_scan hscan (by simp),
    signed_eq_none_of_scan hscan (goesOn_nil _)⟩

/-- A letter that is found is not another one. -/
theorem letter_eq_none_of_letter {e f : Char} {found other : Token}
    (he : ofChar? e = some found) (hf : ofChar? f = some other)
    (hne : found ≠ other) {text rest : List Char}
    (h : letter e text = some ((), rest)) : letter f text = none := by
  obtain ⟨c, hskip, hc⟩ := (letter_eq_some_iff he).1 h
  cases hletter : letter f text with
  | none => rfl
  | some read =>
      obtain ⟨⟨⟩, rest'⟩ := read
      obtain ⟨c', hskip', hc'⟩ := (letter_eq_some_iff hf).1 hletter
      rw [hskip] at hskip'
      cases hskip'
      rw [hc, Option.some.injEq] at hc'
      exact absurd hc' hne

/-- A letter that is found is no digit. -/
theorem unsigned_eq_none_of_letter {e : Char} {token : Token}
    (he : ofChar? e = some token) {text rest : List Char}
    (h : letter e text = some ((), rest)) : unsigned text = none := by
  obtain ⟨c, hskip, hc⟩ := (letter_eq_some_iff he).1 h
  unfold unsigned
  rw [hskip, readWord_other (not_blank_of_ofChar? hc).2]
  rfl

/-- No number comes next where a letter does that is no sign. -/
theorem noNumberAhead_of_letter {e : Char} {token : Token}
    (he : ofChar? e = some token) (hplus : token ≠ .plus)
    (hminus : token ≠ .minus) {text rest : List Char}
    (h : letter e text = some ((), rest)) : NoNumberAhead text := by
  have hnone := unsigned_eq_none_of_letter he h
  refine ⟨hnone, ?_⟩
  unfold signed
  rw [letter_eq_none_of_letter (f := '+') he rfl hplus h,
    letter_eq_none_of_letter (f := '-') he rfl hminus h, hnone]
  rfl

/-- A letter is still found when the text goes on. -/
theorem letter_append {e : Char} {token : Token}
    (he : ofChar? e = some token) {text rest : List Char}
    (h : letter e text = some ((), rest)) (tail : List Char) :
    letter e (text ++ tail) = some ((), rest ++ tail) := by
  obtain ⟨c, hskip, hc⟩ := (letter_eq_some_iff he).1 h
  exact (letter_eq_some_iff he).2 ⟨c, Text.skipBlank_append hskip tail, hc⟩

/-- A letter that is not found is not found in a text cut short. -/
theorem letter_eq_none_of_append {e : Char} {token : Token}
    (he : ofChar? e = some token) {text tail : List Char}
    (h : letter e (text ++ tail) = none) : letter e text = none := by
  cases hletter : letter e text with
  | none => rfl
  | some read =>
      obtain ⟨⟨⟩, rest⟩ := read
      rw [letter_append he hletter tail] at h
      cases h

-- ======================================================== basic readers

/-- A read stays what it is when the end of what it leaves is cut off, if
only what is left keeps to a condition. -/
def Reader.Cut {α : Type} (Ends : List Char → Prop) (read : Reader α) :
    Prop :=
  ∀ ⦃text v rest tail⦄, read text = some (v, rest ++ tail) → Ends rest →
    ∃ front, text = front ++ tail ∧ read front = some (v, rest)

/-- The text that is used up is read alone, to its end and with the same
value. -/
def Reader.Alone {α : Type} (read : Reader α) : Prop :=
  ∀ ⦃text v rest⦄, read text = some (v, rest) →
    ∃ front, text = front ++ rest ∧ read front = some (v, [])

/-- A rule that can be cut can be cut right where it has stopped. -/
theorem Reader.Cut.alone {α : Type} {Ends : List Char → Prop}
    {read : Reader α} (h : Cut Ends read) (hends : Ends []) :
    Alone read := by
  intro text v rest hread
  rw [← List.nil_append rest] at hread
  exact h hread hends

/-- The text that a rule uses up is read by it alone, to its end and with
the same value. -/
def Cursor.Alone {α : Type} (rule : Cursor.Rule α) : Prop :=
  ∀ ⦃cursor after v⦄, rule.run cursor = (some v, after) →
    ∃ front, cursor.rest = front ++ after.rest
      ∧ rule.run ⟨front⟩ = (some v, ⟨[]⟩)

/-- A rule reads alone what the reader that it follows reads alone. -/
theorem Cursor.Follows.alone {α : Type} {rule : Cursor.Rule α}
    {read : Reader α} (h : Cursor.Follows rule read)
    (hread : read.Alone) : Cursor.Alone rule := by
  intro cursor after v hrun
  obtain ⟨front, hsplit, hfront⟩ := hread (h.read_of_found hrun)
  exact ⟨front, hsplit, h.tracks.found hfront⟩

/-- Wherever a text may be cut. -/
abbrev Anywhere (_ : List Char) : Prop := True

theorem letter_cut {e : Char} {token : Token}
    (he : ofChar? e = some token) : Cut Anywhere (letter e) := by
  intro text v rest tail h _
  obtain ⟨c, hskip, hc⟩ := (letter_eq_some_iff he).1 h
  rw [← List.cons_append] at hskip
  obtain ⟨front, rfl, hfront⟩ := Text.exists_of_skipBlank hskip
  exact ⟨front, rfl, (letter_eq_some_iff he).2 ⟨c, hfront, hc⟩⟩

/-- No digit stands behind the digits that come next. -/
theorem noDigitAhead_afterDigits (text : List Char) :
    NoDigitAhead (afterDigits text) := by
  intro c hc
  have hhead := List.head?_dropWhile_not Char.isDigit text
  unfold afterDigits at hc
  rw [hc] at hhead
  simpa using hhead

theorem NoDigitAhead.of_append {text tail : List Char}
    (h : NoDigitAhead (text ++ tail)) : NoDigitAhead text := by
  intro c hc
  refine h c ?_
  rw [List.head?_append, hc]
  rfl

/-- A word that is read is the value of the digits in front, and these
are all the digits that come next. -/
theorem readWord_eq_ok_iff {text rest : List Char} {n : UInt32} :
    readWord text = .ok (n, rest)
      ↔ ∃ run, run ≠ [] ∧ (∀ c ∈ run, c.isDigit = true)
        ∧ NoDigitAhead rest ∧ text = run ++ rest
        ∧ value run < UInt32.size ∧ n = UInt32.ofNat (value run) := by
  constructor
  · intro h
    unfold readWord at h
    split at h
    · cases h
    · next hne =>
        split at h
        · next hsize =>
            cases h
            refine ⟨leadingDigits text, by simpa using hne, ?_,
              noDigitAhead_afterDigits text,
              (leadingDigits_append_afterDigits text).symm, hsize, rfl⟩
            intro c hc
            exact List.mem_takeWhile_imp hc
        · cases h
  · intro h
    obtain ⟨run, hne, hrun, hahead, rfl, hsize, rfl⟩ := h
    obtain ⟨hlead, hafter⟩ := digits_append hrun hahead
    unfold readWord
    rw [hlead, hafter, if_neg (by simpa using hne), if_pos hsize]

theorem unsigned_eq_some_iff {text rest : List Char} {n : UInt32} :
    unsigned text = some (n, rest)
      ↔ readWord (Text.skipBlank text) = .ok (n, rest) := by
  unfold unsigned
  cases readWord (Text.skipBlank text) with
  | error e => simp [Except.toOption]
  | ok found => simp [Except.toOption]

theorem unsigned_cut : Cut Anywhere unsigned := by
  intro text n rest tail h _
  obtain ⟨run, hne, hrun, hahead, hskip, hsize, hn⟩ :=
    readWord_eq_ok_iff.1 (unsigned_eq_some_iff.1 h)
  rw [← List.append_assoc] at hskip
  obtain ⟨front, rfl, hfront⟩ := Text.exists_of_skipBlank hskip
  refine ⟨front, rfl, unsigned_eq_some_iff.2 ?_⟩
  rw [hfront]
  exact readWord_eq_ok_iff.2
    ⟨run, hne, hrun, hahead.of_append, rfl, hsize, hn⟩

/-- A number is still read, up to the same place, when a text goes on
that does not end with it. -/
theorem unsigned_append {text rest : List Char} {n : UInt32} {c : Char}
    (h : unsigned text = some (n, c :: rest)) (tail : List Char) :
    unsigned (text ++ tail) = some (n, c :: rest ++ tail) := by
  obtain ⟨run, hne, hrun, hahead, hskip, hsize, hn⟩ :=
    readWord_eq_ok_iff.1 (unsigned_eq_some_iff.1 h)
  refine unsigned_eq_some_iff.2 (readWord_eq_ok_iff.2
    ⟨run, hne, hrun, ?_, ?_, hsize, hn⟩)
  · exact noDigitAhead_cons (hahead c rfl) _
  · obtain ⟨d, run, rfl⟩ := List.exists_cons_of_ne_nil hne
    rw [Text.skipBlank_append hskip]
    simp

/-- A signed number is a number behind a sign, or a number where no sign
comes next. -/
theorem signed_eq_some_iff {text rest : List Char} {n : Int} :
    signed text = some (n, rest)
      ↔ ∃ w : UInt32,
        (∃ after, letter '+' text = some ((), after)
          ∧ unsigned after = some (w, rest) ∧ n = w.toNat)
        ∨ (∃ after, letter '-' text = some ((), after)
          ∧ unsigned after = some (w, rest) ∧ n = -(w.toNat : Int))
        ∨ (letter '+' text = none ∧ letter '-' text = none
          ∧ unsigned text = some (w, rest) ∧ n = w.toNat) := by
  constructor
  · intro h
    unfold signed at h
    split at h
    · next after hsign =>
        obtain ⟨⟨w, last⟩, hread, heq⟩ := Option.map_eq_some_iff.1 h
        cases heq
        exact ⟨w, Or.inl ⟨after, hsign, hread, rfl⟩⟩
    · next hplus =>
        split at h
        · next after hsign =>
            obtain ⟨⟨w, last⟩, hread, heq⟩ := Option.map_eq_some_iff.1 h
            cases heq
            exact ⟨w, Or.inr (Or.inl ⟨after, hsign, hread, rfl⟩)⟩
        · next hminus =>
            obtain ⟨⟨w, last⟩, hread, heq⟩ := Option.map_eq_some_iff.1 h
            cases heq
            exact ⟨w, Or.inr (Or.inr ⟨hplus, hminus, hread, rfl⟩)⟩
  · intro h
    unfold signed
    obtain ⟨w, ⟨after, hsign, hread, rfl⟩ | ⟨after, hsign, hread, rfl⟩
      | ⟨hplus, hminus, hread, rfl⟩⟩ := h
    · simp only [hsign, hread, Option.map_some]
    · have hplus : letter '+' text = none :=
        letter_eq_none_of_letter (e := '-') rfl rfl (by decide) hsign
      simp only [hplus, hsign, hread, Option.map_some]
    · simp only [hplus, hminus, hread, Option.map_some]

theorem signed_cut : Cut Anywhere signed := by
  intro text n rest tail h _
  obtain ⟨w, ⟨after, hsign, hread, hn⟩ | ⟨after, hsign, hread, hn⟩
    | ⟨hplus, hminus, hread, hn⟩⟩ := signed_eq_some_iff.1 h
  · obtain ⟨m, rfl, hread'⟩ := unsigned_cut hread trivial
    obtain ⟨front, rfl, hsign'⟩ :=
      letter_cut (e := '+') rfl hsign trivial
    exact ⟨front, rfl, signed_eq_some_iff.2
      ⟨w, Or.inl ⟨m, hsign', hread', hn⟩⟩⟩
  · obtain ⟨m, rfl, hread'⟩ := unsigned_cut hread trivial
    obtain ⟨front, rfl, hsign'⟩ :=
      letter_cut (e := '-') rfl hsign trivial
    exact ⟨front, rfl, signed_eq_some_iff.2
      ⟨w, Or.inr (Or.inl ⟨m, hsign', hread', hn⟩)⟩⟩
  · obtain ⟨front, rfl, hread'⟩ := unsigned_cut hread trivial
    exact ⟨front, rfl, signed_eq_some_iff.2 ⟨w, Or.inr (Or.inr
      ⟨letter_eq_none_of_append (e := '+') rfl hplus,
        letter_eq_none_of_append (e := '-') rfl hminus, hread', hn⟩)⟩⟩

-- =============================================================== group

theorem count_cut : Cut NoNumberAhead count := by
  intro text n rest tail h hends
  rcases count_eq_some_iff.1 h with ⟨hread, hle⟩ | ⟨-, hn, rfl⟩
  · obtain ⟨front, rfl, hread'⟩ := unsigned_cut hread trivial
    exact ⟨front, rfl, count_eq_some_iff.2 (Or.inl ⟨hread', hle⟩)⟩
  · exact ⟨rest, rfl, count_eq_some_iff.2 (Or.inr ⟨hends.1, hn, rfl⟩)⟩

theorem sides_cut : Cut Anywhere sides := by
  intro text n rest tail h _
  obtain ⟨front, rfl, hread⟩ :=
    unsigned_cut (sides_eq_some_iff.1 h) trivial
  exact ⟨front, rfl, sides_eq_some_iff.2 hread⟩

theorem bonus_cut : Cut NoNumberAhead bonus := by
  intro text n rest tail h hends
  rcases bonus_eq_some_iff.1 h with hread | ⟨-, hn, rfl⟩
  · obtain ⟨front, rfl, hread'⟩ := signed_cut hread trivial
    exact ⟨front, rfl, bonus_eq_some_iff.2 (Or.inl hread')⟩
  · exact ⟨rest, rfl, bonus_eq_some_iff.2 (Or.inr ⟨hends.2, hn, rfl⟩)⟩

-- a number too long is no bonus, and cut short it is one
example : bonus "99999999999".toList = some (0, "99999999999".toList)
    ∧ bonus "9".toList = some (9, []) := by
  decide

theorem group_cut : Cut NoNumberAhead group := by
  intro text g rest tail h hends
  obtain ⟨t₁, t₂, t₃, hcount, hletter, hsides, hbonus⟩ :=
    group_eq_some_iff.1 h
  obtain ⟨m₃, rfl, hbonus'⟩ := bonus_cut hbonus hends
  obtain ⟨m₂, rfl, hsides'⟩ := sides_cut hsides trivial
  obtain ⟨m₁, rfl, hletter'⟩ := letter_cut (e := 'd') rfl hletter trivial
  have hahead : NoNumberAhead m₁ :=
    noNumberAhead_of_letter (e := 'd') rfl (by decide) (by decide) hletter'
  obtain ⟨front, rfl, hcount'⟩ := count_cut hcount hahead
  exact ⟨front, rfl, group_eq_some_iff.2
    ⟨m₁, m₂, m₃, hcount', hletter', hsides', hbonus'⟩⟩

-- ================================================================= die

/-- In front of further groups no number comes next, if none does behind
them. -/
theorem noNumberAhead_of_moreGroups {room : Nat} {text rest : List Char}
    {others : List Group}
    (h : moreGroups room text = some (others, rest))
    (hends : NoNumberAhead rest) : NoNumberAhead text := by
  obtain ⟨-, -, rfl⟩ | ⟨_, _, _, _, _, -, hletter, -⟩ :=
    moreGroups_eq_some_iff.1 h
  · exact hends
  · exact noNumberAhead_of_letter (e := '&') rfl (by decide) (by decide)
      hletter

theorem moreGroups_cut (room : Nat) :
    Cut NoNumberAhead (moreGroups room) := by
  induction room using Nat.strongRecOn with
  | ind room ih =>
      intro text others rest tail h hends
      obtain ⟨hletter, hothers, rfl⟩
        | ⟨left, t₁, g, t₂, more, rfl, hletter, hgroup, hmore, hothers⟩ :=
        moreGroups_eq_some_iff.1 h
      · exact ⟨rest, rfl, moreGroups_eq_some_iff.2 (Or.inl
          ⟨letter_eq_none_of_append (e := '&') rfl hletter, hothers, rfl⟩)⟩
      · obtain ⟨m₂, rfl, hmore'⟩ := ih left (by omega) hmore hends
        obtain ⟨m₁, rfl, hgroup'⟩ :=
          group_cut hgroup (noNumberAhead_of_moreGroups hmore' hends)
        obtain ⟨front, rfl, hletter'⟩ :=
          letter_cut (e := '&') rfl hletter trivial
        exact ⟨front, rfl, moreGroups_eq_some_iff.2 (Or.inr ⟨left, m₁, g, m₂,
          more, rfl, hletter', hgroup', hmore', hothers⟩)⟩

theorem dieAfter_cut (first : Die) : Cut NoNumberAhead (dieAfter first) := by
  intro text d rest tail h hends
  obtain ⟨more, hmore, hd⟩ := dieAfter_eq_some_iff.1 h
  obtain ⟨front, rfl, hmore'⟩ := moreGroups_cut _ hmore hends
  exact ⟨front, rfl, dieAfter_eq_some_iff.2 ⟨more, hmore', hd⟩⟩

theorem die_cut : Cut NoNumberAhead die := by
  intro text d rest tail h hends
  obtain ⟨g, t₁, more, hgroup, hmore, hd⟩ := die_eq_some_iff.1 h
  obtain ⟨m₁, rfl, hmore'⟩ := moreGroups_cut _ hmore hends
  obtain ⟨front, rfl, hgroup'⟩ :=
    group_cut hgroup (noNumberAhead_of_moreGroups hmore' hends)
  exact ⟨front, rfl, die_eq_some_iff.2 ⟨g, m₁, more, hgroup', hmore', hd⟩⟩

-- ================================================================ roll

/-- Where no repeat count comes next, none does in the text cut short:
an x behind a number would still be there if the text went on. -/
theorem repeatCount_cut : Cut Anywhere repeatCount := by
  intro text times rest tail h _
  rcases repeatCount_eq_some_iff.1 h with
    ⟨t₁, hread, hletter, hle⟩ | ⟨hnone, htimes, rfl⟩
  · obtain ⟨m₁, rfl, hletter'⟩ := letter_cut (e := 'x') rfl hletter trivial
    obtain ⟨front, rfl, hread'⟩ := unsigned_cut hread trivial
    exact ⟨front, rfl, repeatCount_eq_some_iff.2
      (Or.inl ⟨m₁, hread', hletter', hle⟩)⟩
  · refine ⟨rest, rfl, repeatCount_eq_some_iff.2
      (Or.inr ⟨?_, htimes, rfl⟩)⟩
    intro w after hread
    cases after with
    | nil => rfl
    | cons c after =>
        exact letter_eq_none_of_append (e := 'x') rfl
          (hnone w _ (unsigned_append hread tail))

theorem roll_cut : Cut NoNumberAhead roll := by
  intro text dice rest tail h hends
  obtain ⟨times, t₁, d, hcount, hdie, hdice⟩ := roll_eq_some_iff.1 h
  obtain ⟨m₁, rfl, hdie'⟩ := die_cut hdie hends
  obtain ⟨front, rfl, hcount'⟩ := repeatCount_cut hcount trivial
  exact ⟨front, rfl, roll_eq_some_iff.2
    ⟨times, m₁, d, hcount', hdie', hdice⟩⟩

-- =========================================================== roll list

/-- In front of further rolls no number comes next, if none does behind
them. -/
theorem noNumberAhead_of_moreRolls {text rest : List Char}
    {others : List Die} (h : moreRolls text = some (others, rest))
    (hends : NoNumberAhead rest) : NoNumberAhead text := by
  obtain ⟨-, -, rfl⟩ | ⟨_, _, _, _, hletter, -⟩ :=
    moreRolls_eq_some_iff.1 h
  · exact hends
  · exact noNumberAhead_of_letter (e := ';') rfl (by decide) (by decide)
      hletter

/-- The induction is on the text, which each roll makes shorter. -/
theorem moreRolls_cut : Cut NoNumberAhead moreRolls := by
  intro text others rest tail h hends
  fun_induction moreRolls text generalizing others with
  | case1 text hsep =>
      cases h
      exact ⟨rest, rfl, moreRolls_eq_some_iff.2 (Or.inl
        ⟨letter_eq_none_of_append (e := ';') rfl hsep, rfl, rfl⟩)⟩
  | case2 text afterSep hsep hroll => cases h
  | case3 text afterSep hsep dice afterRoll hroll hmore ih => cases h
  | case4 text afterSep hsep dice afterRoll hroll more last hmore ih =>
      cases h
      obtain ⟨m₂, rfl, hmore'⟩ := ih hmore
      obtain ⟨m₁, rfl, hroll'⟩ :=
        roll_cut hroll (noNumberAhead_of_moreRolls hmore' hends)
      obtain ⟨front, rfl, hsep'⟩ := letter_cut (e := ';') rfl hsep trivial
      exact ⟨front, rfl, moreRolls_eq_some_iff.2 (Or.inr
        ⟨m₁, dice, m₂, more, hsep', hroll', hmore', rfl⟩)⟩

theorem rollList_cut : Cut NoNumberAhead rollList := by
  intro text dice rest tail h hends
  obtain ⟨first, t₁, more, hroll, hmore, hdice⟩ := rollList_eq_some_iff.1 h
  obtain ⟨m₁, rfl, hmore'⟩ := moreRolls_cut hmore hends
  obtain ⟨front, rfl, hroll'⟩ :=
    roll_cut hroll (noNumberAhead_of_moreRolls hmore' hends)
  exact ⟨front, rfl, rollList_eq_some_iff.2
    ⟨first, m₁, more, hroll', hmore', hdice⟩⟩

-- ======================================================== what is left

/-- Behind further groups no ampersand comes next. -/
theorem no_ampersand_of_moreGroups {room : Nat} {text rest : List Char}
    {others : List Group}
    (h : moreGroups room text = some (others, rest)) :
    letter '&' rest = none := by
  induction room using Nat.strongRecOn generalizing text others with
  | ind room ih =>
      obtain ⟨hletter, -, rfl⟩ | ⟨left, _, _, _, _, rfl, -, -, hmore, -⟩ :=
        moreGroups_eq_some_iff.1 h
      · exact hletter
      · exact ih left (by omega) hmore

theorem no_ampersand_of_roll {text rest : List Char} {dice : List Die}
    (h : roll text = some (dice, rest)) : letter '&' rest = none := by
  obtain ⟨times, t₁, d, -, hdie, -⟩ := roll_eq_some_iff.1 h
  obtain ⟨g, t₂, more, -, hmore, -⟩ := die_eq_some_iff.1 hdie
  exact no_ampersand_of_moreGroups hmore

/-- Behind further rolls no semicolon comes next, and no ampersand if
none comes in front of them. -/
theorem stops_of_moreRolls {text rest : List Char} {others : List Die}
    (h : moreRolls text = some (others, rest))
    (hfront : letter '&' text = none) :
    letter ';' rest = none ∧ letter '&' rest = none := by
  fun_induction moreRolls text generalizing others rest with
  | case1 text hsep =>
      cases h
      exact ⟨hsep, hfront⟩
  | case2 text afterSep hsep hroll => cases h
  | case3 text afterSep hsep dice afterRoll hroll hmore ih => cases h
  | case4 text afterSep hsep dice afterRoll hroll more last hmore ih =>
      cases h
      exact ih hmore (no_ampersand_of_roll hroll)

/-- A roll list is read as far as it goes. -/
theorem stops_of_rollList {text rest : List Char} {dice : List Die}
    (h : rollList text = some (dice, rest)) :
    letter ';' rest = none ∧ letter '&' rest = none := by
  obtain ⟨first, t₁, more, hroll, hmore, -⟩ := rollList_eq_some_iff.1 h
  exact stops_of_moreRolls hmore (no_ampersand_of_roll hroll)

namespace Rolls

/-- What was left of a rejected text. -/
inductive Leftover (input : String) : String → Prop
  /-- All of it. -/
  | all : Leftover input input
  /-- A part at its end, without blanks in front, that neither a
  semicolon nor an ampersand ties to what stands before. Without it the
  text is accepted. -/
  | part {front : String} {c : Char} {more : List Char} {dice : List Die}
      (whole : input = front ++ String.ofList (c :: more))
      (before : front ≠ "") (blank : Text.isBlank c = false)
      (semicolon : c ≠ ';') (ampersand : c ≠ '&')
      (accepted : parse front = .ok dice) :
      Leftover input (String.ofList (c :: more))

theorem leftover_of_parse {input : String} {rejection : Rejection}
    (h : parse input = .error rejection) :
    Leftover input rejection.rest := by
  rw [parse_eq] at h
  split at h
  · cases h
    exact .all
  · next dice rest hread =>
      simp only at h
      split at h
      · cases h
      · next hleft =>
          cases h
          have hne : Text.skipBlank rest ≠ [] := by simpa using hleft
          obtain ⟨c, more, hskip⟩ := List.exists_cons_of_ne_nil hne
          obtain ⟨hsemicolon, hampersand⟩ := stops_of_rollList hread
          have hother : ∀ {e : Char} {token : Token},
              ofChar? e = some token → letter e rest = none → c ≠ e := by
            rintro e token he hnone rfl
            rw [(letter_eq_some_iff he).2 ⟨c, hskip, he⟩] at hnone
            cases hnone
          -- the blanks in front of what is left stay with the rest
          have hsplit : rest.takeWhile Text.isBlank ++ c :: more = rest := by
            rw [← hskip]
            exact List.takeWhile_append_dropWhile
          have hblank : Text.skipBlank (rest.takeWhile Text.isBlank) = [] :=
            Text.skipBlank_eq_nil_iff.2 fun _ hc => List.mem_takeWhile_imp hc
          rw [← hsplit] at hread
          obtain ⟨front, hinput, hfront⟩ :=
            rollList_cut hread (noNumberAhead_of_blank hblank)
          have haccepted : parse (String.ofList front) = .ok dice := by
            rw [parse_eq, String.toList_ofList, hfront]
            simp only [hblank, List.isEmpty_nil, if_true]
          have hwhole : input
              = String.ofList front ++ String.ofList (c :: more) := by
            rw [← String.ofList_append, ← hinput, String.ofList_toList]
          have hbefore : String.ofList front ≠ "" := by
            have hlength := (rollList_consumes hfront).2
            rintro hempty
            rw [String.ofList_eq_empty_iff.1 hempty] at hlength
            exact absurd hlength (Nat.not_lt_zero _)
          rw [hskip]
          exact .part hwhole hbefore (not_blank_of_skipBlank hskip)
            (hother (e := ';') rfl hsemicolon)
            (hother (e := '&') rfl hampersand) haccepted

example : parse "d6; d8 + 99999999999"
    = .error ⟨"d6; d8 + 99999999999", "+ 99999999999"⟩ := by
  decide +kernel

/-- What a rule of the notation reads hangs on the text it uses up alone:
that text by itself is read to its end, with the same value. So what is
reported as left over from a rejected text is all of the text, or an end
of it that is no sign of a further group or roll and without which the
text is accepted. -/
theorem cut_law :
    Cursor.Alone Cursor.readRepeatCount ∧ Cursor.Alone Cursor.readGroup
      ∧ (∀ first, Cursor.Alone (Cursor.readDieAfter first))
      ∧ Cursor.Alone Cursor.readDie ∧ Cursor.Alone Cursor.readRoll
      ∧ Cursor.Alone Cursor.readRollList
      ∧ ∀ input rejection, parse input = .error rejection →
        Leftover input rejection.rest := by
  have hends : NoNumberAhead [] := noNumberAhead_of_blank rfl
  refine ⟨?_, ?_, ?_, ?_, ?_, ?_, fun _ _ h => leftover_of_parse h⟩
  · exact Cursor.readRepeatCount_follows.alone
      (repeatCount_cut.alone trivial)
  · exact Cursor.readGroup_follows.alone (group_cut.alone hends)
  · intro first
    exact (Cursor.readDieAfter_follows first).alone
      ((dieAfter_cut first).alone hends)
  · exact Cursor.readDie_follows.alone (die_cut.alone hends)
  · exact Cursor.readRoll_follows.alone (roll_cut.alone hends)
  · exact Cursor.readRollList_follows.alone (rollList_cut.alone hends)

end Rolls

end DiceNotation
