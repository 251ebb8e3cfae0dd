/-
The tokens of dice notation, and the readers seen from them. A text is
a row of tokens, whatever blanks stand between them; this file says
which row, and that each basic reader takes exactly the first token of
the row, or finds that it is another one and takes nothing.

# Why the readers agree with the row

`scan` cuts a text once, from left to right, with no choice. A reader
looks at one token only, and both pass over the same blanks first, so
the two can be compared token by token: the text behind a token scans to
the rest of the row (`scan_of_letter`, `scan_of_unsigned`), and where
the row starts with a token its reader finds it (`letter_of_scan`,
`unsigned_of_scan`). A reader that looks for another token than the
first one must find nothing, since finding something would put its token
in front of the row.

The one thing to check by a table is that no letter beyond ASCII has a
mark of the notation as its lower case (`sameLetter_iff`): comparing in
either case is comparing with the two ASCII letters.
-/
import DiceNotation.Reader

namespace DiceNotation

-- =========================================================== the tokens

/-- A token of dice notation. -/
inductive Token where
  /-- A run of digits, as long as it can be, by its value. -/
  | number (value : Nat)
  /-- The letter d. -/
  | die
  /-- The letter x. -/
  | times
  | semicolon
  | ampersand
  | plus
  | minus
deriving DecidableEq, Repr

namespace Token

open Reader Decimal

/-- The token that a character is. -/
def ofChar? : Char → Option Token
  | 'd' | 'D' => some .die
  | 'x' | 'X' => some .times
  | ';' => some .semicolon
  | '&' => some .ampersand
  | '+' => some .plus
  | '-' => some .minus
  | _ => none

/-- The tokens of a text, unless a character of it belongs to none.
Blanks part tokens and are none themselves. -/
def scan : List Char → Option (List Token)
  | [] => some []
  | c :: text =>
      if Text.isBlank c then scan text
      else if c.isDigit then
        (scan (afterDigits text)).map
          (.number (value (c :: leadingDigits text)) :: ·)
      else
        match ofChar? c with
        | none => none
        | some token => (scan text).map (token :: ·)
termination_by text => text.length
decreasing_by
  · simp
  · have := (List.dropWhile_suffix (l := text) Char.isDigit).length_le
    unfold afterDigits
    simp only [List.length_cons]
    omega
  · simp

-- ====================================================== single letters

/-- The characters that are tokens. -/
def letters : List Char := ['d', 'D', 'x', 'X', ';', '&', '+', '-']

theorem mem_letters {c : Char} {token : Token}
    (h : ofChar? c = some token) : c ∈ letters := by
  unfold ofChar? at h
  split at h <;> simp [letters] at h ⊢

/-- A character that is a token is neither a blank nor a digit. -/
theorem not_blank_of_ofChar? {c : Char} {token : Token}
    (h : ofChar? c = some token) :
    Text.isBlank c = false ∧ c.isDigit = false := by
  have hall : (letters.all fun c => !Text.isBlank c && !c.isDigit)
      = true := by decide
  simpa using List.all_eq_true.1 hall c (mem_letters h)

/-- No single character is a number. -/
theorem ofChar?_ne_number {c : Char} {n : Nat} :
    ofChar? c ≠ some (.number n) := by
  intro h
  unfold ofChar? at h
  split at h <;> cases h

/-- Every capital beyond ASCII has its lower case beyond ASCII, the sign
of the kelvin apart. -/
theorem caseRuns_beyond_ascii :
    ∀ run ∈ Text.caseRuns,
      0x80 ≤ run.target ∨ (run.first = run.last ∧ run.target = 0x6b) := by
  decide +kernel

/-- The character of a number has that number, or else it is zero. -/
theorem ofNat_cases (n : Nat) :
    (Char.ofNat n).toNat = n ∨ Char.ofNat n = '\x00' := by
  unfold Char.ofNat
  by_cases h : n.isValidChar
  · rw [dif_pos h]
    exact .inl rfl
  · rw [dif_neg h]
    exact .inr rfl

/-- A lower case in ASCII, other than a k, comes from ASCII. -/
theorem ascii_of_lowerCase {c l : Char} (h : Text.lowerCase c = [l])
    (hl : l.toNat < 0x80) (hk : l ≠ 'k') (hz : l ≠ '\x00') :
    c.toNat < 0x80 := by
  rcases Nat.lt_or_ge c.toNat 0x80 with hc | hc
  · exact hc
  · exfalso
    unfold Text.lowerCase at h
    rw [if_neg (by omega)] at h
    split at h
    · simp at h
    · split at h
      · next run hfind =>
          have hcover := List.find?_some hfind
          have hrun := List.mem_of_find?_eq_some hfind
          simp only [Text.CaseRun.covers, Bool.and_eq_true,
            decide_eq_true_eq] at hcover
          injection h with h
          rcases ofNat_cases (run.target + (c.toNat - run.first))
            with hval | hzero
          · -- a capital of the table: its lower case lies behind the target
            rw [h] at hval
            rcases caseRuns_beyond_ascii run hrun with ht | ⟨hf, ht⟩
            · omega
            · refine hk ?_
              have hlk : l.toNat = 'k'.toNat := by
                show l.toNat = 0x6b
                omega
              rw [← Char.ofNat_toNat l, hlk]
              rfl
          · rw [h] at hzero
            exact hz hzero
      · injection h with h
        rw [h] at hc
        omega

/-- Characters of ASCII are one letter exactly when they are one
token. -/
theorem sameLetter_ascii {e c : Char} (he : e ∈ letters)
    (hc : c.toNat < 0x80) :
    Text.sameLetter e c = decide (ofChar? c = ofChar? e) := by
  have hall : (letters.all fun e => (List.range 0x80).all fun n =>
      Text.sameLetter e (Char.ofNat n)
        == decide (ofChar? (Char.ofNat n) = ofChar? e)) = true := by
    decide +kernel
  have hrow := List.all_eq_true.1 (List.all_eq_true.1 hall e he) c.toNat
    (List.mem_range.2 hc)
  rw [Char.ofNat_toNat, beq_iff_eq] at hrow
  exact hrow

/-- The lower case of a character that is a token. -/
theorem lowerCase_letter {e : Char} (he : e ∈ letters) :
    Text.lowerCase e = [e.toLower] ∧ e.toLower.toNat < 0x80
      ∧ e.toLower ≠ 'k' ∧ e.toLower ≠ '\x00' ∧ e.toNat < 0x80 := by
  have hall : (letters.all fun e => decide
      (Text.lowerCase e = [e.toLower] ∧ e.toLower.toNat < 0x80
        ∧ e.toLower ≠ 'k' ∧ e.toLower ≠ '\x00' ∧ e.toNat < 0x80))
      = true := by
    decide +kernel
  exact of_decide_eq_true (List.all_eq_true.1 hall e he)

/-- To compare with a token in either case is to ask for the token. -/
theorem sameLetter_iff {e : Char} {token : Token}
    (he : ofChar? e = some token) (c : Char) :
    Text.sameLetter e c = true ↔ ofChar? c = some token := by
  have hmem := mem_letters he
  obtain ⟨hlow, hascii, hk, hz, -⟩ := lowerCase_letter hmem
  rcases Nat.lt_or_ge c.toNat 0x80 with hc | hc
  · rw [sameLetter_ascii hmem hc, he, decide_eq_true_eq]
  · constructor
    · intro hsame
      unfold Text.sameLetter at hsame
      rw [hlow, beq_iff_eq] at hsame
      have := ascii_of_lowerCase hsame.symm hascii hk hz
      omega
    · intro htoken
      obtain ⟨-, -, -, -, hlt⟩ := lowerCase_letter (mem_letters htoken)
      omega

-- ========================================================== the row

@[simp] theorem scan_nil : scan [] = some [] := by
  rw [scan]

/-- A blank in front changes no token. -/
theorem scan_blank {c : Char} (h : Text.isBlank c = true)
    (text : List Char) : scan (c :: text) = scan text := by
  rw [scan, if_pos h]

/-- A token of one character stands first in the row. -/
theorem scan_char {c : Char} {token : Token}
    (h : ofChar? c = some token) (text : List Char) :
    scan (c :: text) = (scan text).map (token :: ·) := by
  obtain ⟨hblank, hdigit⟩ := not_blank_of_ofChar? h
  rw [scan]
  simp [hblank, hdigit, h]

theorem not_blank_of_isDigit {c : Char} (h : c.isDigit = true) :
    Text.isBlank c = false := by
  simp only [Char.isDigit, Bool.and_eq_true, decide_eq_true_eq] at h
  have hlow : 0x30 ≤ c.toNat := UInt32.le_iff_toNat_le.1 h.1
  have hhigh : c.toNat ≤ 0x39 := UInt32.le_iff_toNat_le.1 h.2
  unfold Text.isBlank
  simp
  omega

/-- A digit in front makes a number of all the digits that follow. -/
theorem scan_digit {c : Char} (h : c.isDigit = true)
    (text : List Char) :
    scan (c :: text) = (scan (afterDigits text)).map
      (.number (value (c :: leadingDigits text)) :: ·) := by
  rw [scan]
  simp [not_blank_of_isDigit h, h]

/-- Blanks passed over change no token. -/
theorem scan_skipBlank (text : List Char) :
    scan (Text.skipBlank text) = scan text := by
  induction text with
  | nil => rfl
  | cons c text ih =>
      unfold Text.skipBlank at ih ⊢
      by_cases h : Text.isBlank c = true
      · rw [List.dropWhile_cons_of_pos h, ih, scan_blank h]
      · rw [List.dropWhile_cons_of_neg h]

/-- A character that stands behind skipped blanks is no blank. -/
theorem not_blank_of_skipBlank {text rest : List Char} {c : Char}
    (h : Text.skipBlank text = c :: rest) : Text.isBlank c = false := by
  have hhead := List.head?_dropWhile_not Text.isBlank text
  unfold Text.skipBlank at h
  rw [h] at hhead
  simpa using hhead

/-- A text without tokens is blank, and a blank text has none. -/
theorem scan_eq_nil_iff {text : List Char} :
    scan text = some [] ↔ Text.skipBlank text = [] := by
  rw [← scan_skipBlank]
  cases hskip : Text.skipBlank text with
  | nil => simp
  | cons c rest =>
      rw [scan, not_blank_of_skipBlank hskip]
      by_cases hdigit : c.isDigit = true
      · simp [hdigit]
      · cases ofChar? c <;> simp [hdigit]

/-- What the first token of a row is made of: one character that is a
token, or a digit and the digits behind it. -/
theorem scan_cons {text : List Char} {token : Token}
    {tokens : List Token} (h : scan text = some (token :: tokens)) :
    ∃ c rest, Text.skipBlank text = c :: rest
      ∧ ((ofChar? c = some token ∧ scan rest = some tokens)
        ∨ (c.isDigit = true
          ∧ token = .number (value (c :: leadingDigits rest))
          ∧ scan (afterDigits rest) = some tokens)) := by
  rw [← scan_skipBlank] at h
  cases hskip : Text.skipBlank text with
  | nil =>
      rw [hskip, scan_nil] at h
      cases h
  | cons c rest =>
      refine ⟨c, rest, rfl, ?_⟩
      rw [hskip] at h
      by_cases hdigit : c.isDigit = true
      · rw [scan_digit hdigit, Option.map_eq_some_iff] at h
        obtain ⟨more, hmore, heq⟩ := h
        injection heq with htoken htokens
        exact Or.inr ⟨hdigit, htoken.symm, by rw [hmore, htokens]⟩
      · cases hchar : ofChar? c with
        | none =>
            rw [scan, not_blank_of_skipBlank hskip] at h
            simp [hdigit, hchar] at h
        | some first =>
            rw [scan_char hchar, Option.map_eq_some_iff] at h
            obtain ⟨more, hmore, heq⟩ := h
            injection heq with htoken htokens
            exact Or.inl ⟨by rw [htoken], by rw [hmore, htokens]⟩

example : scan " 2x d6 +03".toList
    = some [.number 2, .times, .die, .number 6, .plus, .number 3] := by
  cbv

-- ================================================== letters as tokens

/-- A letter is found where the first character behind the blanks is its
token. -/
theorem letter_eq_some_iff {e : Char} {token : Token}
    (he : ofChar? e = some token) {text rest : List Char} :
    letter e text = some ((), rest)
      ↔ ∃ c, Text.skipBlank text = c :: rest ∧ ofChar? c = some token := by
  unfold letter literal
  cases Text.skipBlank text with
  | nil => simp [sameLetters]
  | cons c after =>
      simp only [sameLetters, sameLetter_iff he]
      constructor
      · intro h
        split at h
        · next hc =>
            cases h
            exact ⟨c, rfl, hc⟩
        · cases h
      · intro h
        obtain ⟨c', hcons, hc⟩ := h
        cases hcons
        rw [if_pos hc]

/-- A letter that was found is the first token. -/
theorem scan_of_letter {e : Char} {token : Token}
    (he : ofChar? e = some token) {text rest : List Char}
    (h : letter e text = some ((), rest)) :
    scan text = (scan rest).map (token :: ·) := by
  obtain ⟨c, hskip, hc⟩ := (letter_eq_some_iff he).1 h
  rw [← scan_skipBlank, hskip, scan_char hc]

/-- A letter that is the first token is found. -/
theorem letter_of_scan {e : Char} {token : Token}
    (he : ofChar? e = some token) {text : List Char}
    {tokens : List Token} (h : scan text = some (token :: tokens)) :
    ∃ rest, letter e text = some ((), rest) ∧ scan rest = some tokens := by
  obtain ⟨c, rest, hskip, ⟨hc, hrest⟩ | ⟨-, hnumber, -⟩⟩ := scan_cons h
  · exact ⟨rest, (letter_eq_some_iff he).2 ⟨c, hskip, hc⟩, hrest⟩
  · rw [hnumber] at he
    exact absurd he ofChar?_ne_number

/-- A letter that is not the first token is not found. -/
theorem letter_eq_none_of_scan {e : Char} {token : Token}
    (he : ofChar? e = some token) {text : List Char}
    {tokens : List Token} (h : scan text = some tokens)
    (hhead : tokens.head? ≠ some token) : letter e text = none := by
  cases hletter : letter e text with
  | none => rfl
  | some found =>
      obtain ⟨⟨⟩, rest⟩ := found
      rw [scan_of_letter he hletter, Option.map_eq_some_iff] at h
      obtain ⟨more, -, rfl⟩ := h
      exact absurd rfl hhead

-- ================================================== numbers as tokens

/-- Where a text starts with a digit, its numeral is that digit and the
digits behind. -/
theorem readWord_digit {c : Char} (h : c.isDigit = true)
    (text : List Char) :
    readWord (c :: text)
      = if value (c :: leadingDigits text) < UInt32.size then
          .ok (UInt32.ofNat (value (c :: leadingDigits text)),
            afterDigits text)
        else .error .tooLarge := by
  unfold readWord leadingDigits afterDigits
  simp [h]

/-- Where a text does not start with a digit, it has no numeral. -/
theorem readWord_other {c : Char} (h : c.isDigit = false)
    (text : List Char) :
    readWord (c :: text) = .error .noDigit := by
  unfold readWord leadingDigits
  simp [h]

/-- A number that was read is the first token. -/
theorem scan_of_unsigned {text rest : List Char} {n : UInt32}
    (h : unsigned text = some (n, rest)) :
    scan text = (scan rest).map (.number n.toNat :: ·) := by
  unfold unsigned at h
  rw [← scan_skipBlank]
  cases hskip : Text.skipBlank text with
  | nil =>
      rw [hskip] at h
      cases h
  | cons c after =>
      rw [hskip] at h
      by_cases hdigit : c.isDigit = true
      · rw [readWord_digit hdigit] at h
        split at h
        · next hsize =>
            cases h
            rw [scan_digit hdigit, UInt32.toNat_ofNat_of_lt' hsize]
        · cases h
      · rw [readWord_other (by simpa using hdigit)] at h
        cases h

/-- A number in the range of a word that is the first token is read. -/
theorem unsigned_of_scan {text : List Char} {n : UInt32}
    {tokens : List Token}
    (h : scan text = some (.number n.toNat :: tokens)) :
    ∃ rest, unsigned text = some (n, rest) ∧ scan rest = some tokens := by
  obtain ⟨c, rest, hskip, ⟨hc, -⟩ | ⟨hdigit, hvalue, hrest⟩⟩ := scan_cons h
  · exact absurd hc ofChar?_ne_number
  · injection hvalue with hvalue
    refine ⟨afterDigits rest, ?_, hrest⟩
    unfold unsigned
    rw [hskip, readWord_digit hdigit, ← hvalue,
      if_pos (UInt32.toNat_lt_size n), UInt32.ofNat_toNat]
    rfl

/-- Nothing is read where the first token is no number. -/
theorem unsigned_eq_none_of_scan {text : List Char}
    {tokens : List Token} (h : scan text = some tokens)
    (hhead : ∀ n, tokens.head? ≠ some (.number n)) :
    unsigned text = none := by
  cases hread : unsigned text with
  | none => rfl
  | some found =>
      obtain ⟨n, rest⟩ := found
      rw [scan_of_unsigned hread, Option.map_eq_some_iff] at h
      obtain ⟨more, -, rfl⟩ := h
      exact absurd rfl (hhead n.toNat)

end Token

end DiceNotation
