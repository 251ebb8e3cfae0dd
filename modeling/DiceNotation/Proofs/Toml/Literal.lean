/-
Literals as they are written on one line: integers in base ten, booleans
and basic strings. A literal carries what makes it well-formed, so each
can be written, and each is read in one piece: as one token
(`read_written`), which is then one value or none (`value_token`).

# What may follow

Nothing follows a literal on its line. That keeps a word from running on
and a number from becoming the start of a date, of a time or of a
fraction, and it keeps two quotes from becoming three.

# When there is no value

An integer has to fit a signed word of 64 bits, however many digits it
may be written with. That is the only way in which reading a literal
fails, and `value?` says so once for all of them.
-/
import DiceNotation.Proofs.Decimal
import DiceNotation.Proofs.Toml.Quoted
import DiceNotation.Proofs.Word
import DiceNotation.Toml.Document

namespace DiceNotation.Toml

-- ============================================================= integers

/-- The digits of an integer in base ten, without leading zeros. -/
structure Numeral where
  digits : List Char
  nonempty : digits ≠ []
  digits_only : ∀ c ∈ digits, c.isDigit = true
  no_leading_zero : digits.head? = some '0' → digits = ['0']

namespace Numeral

/-- The numeral of a number. -/
def ofNat (n : Nat) : Numeral where
  digits := Decimal.ofNat n
  nonempty := Nat.toDigits_ne_nil
  digits_only := isDigit_of_mem_ofNat n
  no_leading_zero := by
    intro h
    obtain ⟨run, hrun⟩ := List.head?_eq_some_iff.1 h
    rw [eq_zero_of_ofNat_eq_cons hrun]
    rfl

/-- Digits with or without a minus sign in front. -/
def word (numeral : Numeral) (negative : Bool) : List Char :=
  if negative then '-' :: numeral.digits else numeral.digits

/-- The integer that digits are, with or without a minus sign. -/
def toInt (numeral : Numeral) (negative : Bool) : Int :=
  if negative then -(Decimal.value numeral.digits : Int)
  else Decimal.value numeral.digits

/-- A word of an integer has no other characters. -/
theorem mem_word {numeral : Numeral} {negative : Bool} {c : Char}
    (h : c ∈ numeral.word negative) : c = '-' ∨ c.isDigit = true := by
  cases negative with
  | false => exact .inr (numeral.digits_only c h)
  | true => exact (List.mem_cons.1 h).imp_right (numeral.digits_only c)

/-- Such a word has no letters. -/
theorem not_mem_word {numeral : Numeral} {negative : Bool} {c : Char}
    (hminus : c ≠ '-') (hdigit : c.isDigit = false) :
    c ∉ numeral.word negative := by
  intro h
  rcases mem_word h with rfl | hc
  · exact hminus rfl
  · rw [hdigit] at hc
    cases hc

/-- In particular it has none that announces another base. -/
theorem no_base_letter (numeral : Numeral) (negative : Bool) :
    'x' ∉ numeral.word negative ∧ 'o' ∉ numeral.word negative
      ∧ 'b' ∉ numeral.word negative :=
  ⟨not_mem_word (by decide) (by decide),
    not_mem_word (by decide) (by decide),
    not_mem_word (by decide) (by decide)⟩

/-- Such a word is not empty. -/
theorem word_eq_cons (numeral : Numeral) (negative : Bool) :
    ∃ c rest, numeral.word negative = c :: rest
      ∧ (c = '-' ∨ c.isDigit = true)
      ∧ ∀ d ∈ rest, d.isDigit = true := by
  obtain ⟨c, run, hdigits⟩ := List.exists_cons_of_ne_nil numeral.nonempty
  have honly := numeral.digits_only
  rw [hdigits] at honly
  obtain ⟨hc, hrun⟩ := List.forall_mem_cons.1 honly
  cases negative with
  | false => exact ⟨c, run, hdigits, .inr hc, hrun⟩
  | true => exact ⟨'-', numeral.digits, rfl, .inl rfl, numeral.digits_only⟩

end Numeral

namespace Number

/-- A digit of base ten is one for numbers, and has its value there. -/
theorem hexDigit?_of_isDigit {c : Char} (h : c.isDigit = true) :
    Text.hexDigit? c = some (c.toNat - '0'.toNat) := by
  unfold Text.hexDigit?
  rw [if_pos h]

theorem isDigit_ten {c : Char} (h : c.isDigit = true) :
    isDigit 10 c = true := by
  unfold isDigit
  rw [hexDigit?_of_isDigit h]
  simp only [Char.isDigit, Bool.and_eq_true, decide_eq_true_eq] at h
  have hhigh : c.toNat ≤ 0x39 := UInt32.le_iff_toNat_le.1 h.2
  have hzero : '0'.toNat = 0x30 := rfl
  simp only [decide_eq_true_eq]
  omega

/-- Digits without underscores are well spaced. -/
theorem wellSpaced_digits {run : List Char} (hne : run ≠ [])
    (hrun : ∀ c ∈ run, c.isDigit = true) : wellSpaced run = true := by
  have hmark : ∀ c, c.isDigit = true → c ≠ '_' := by
    rintro c hc rfl
    exact absurd hc (by decide)
  induction run with
  | nil => exact absurd rfl hne
  | cons c run ih =>
      obtain ⟨hc, hrest⟩ := List.forall_mem_cons.1 hrun
      have hmark_c := hmark c hc
      cases run with
      | nil => simp [wellSpaced]
      | cons d run =>
          have hd := hmark d (hrest d (List.mem_cons_self ..))
          have hmore := ih (List.cons_ne_nil _ _) hrest
          simp [wellSpaced, hd, hmore]

/-- The value of digits without underscores is their value in base
ten. -/
theorem value_digits {run : List Char}
    (hrun : ∀ c ∈ run, c.isDigit = true) :
    value 10 run = Decimal.value run := by
  have hgeneral : ∀ n, (run.filterMap Text.hexDigit?).foldl
      (fun n d => n * 10 + d) n = Nat.ofDigitChars 10 run n := by
    induction run with
    | nil => exact fun n => rfl
    | cons c run ih =>
        obtain ⟨hc, hrest⟩ := List.forall_mem_cons.1 hrun
        intro n
        rw [List.filterMap_cons_some (hexDigit?_of_isDigit hc),
          List.foldl_cons, ih hrest, Nat.ofDigitChars_cons]
        rw [Nat.mul_comm]
  exact hgeneral 0

/-- A numeral is read as a whole. -/
theorem digits_numeral (numeral : Numeral) :
    digits 10 false numeral.digits = some (numeral.digits, []) := by
  have hpart : ∀ c ∈ numeral.digits,
      (isDigit 10 c || c == '_') = true := by
    intro c hc
    rw [isDigit_ten (numeral.digits_only c hc), Bool.true_or]
  have hend : ∀ c, ([] : List Char).head? = some c →
      (isDigit 10 c || c == '_') = false := by
    simp
  obtain ⟨htake, hdrop⟩ := takeWhile_dropWhile_append hpart hend
  rw [List.append_nil] at htake hdrop
  have hzero : numeral.digits.length = 1
      ∨ numeral.digits.head? ≠ some '0' := by
    by_cases h : numeral.digits.head? = some '0'
    · exact .inl (by rw [numeral.no_leading_zero h]; rfl)
    · exact .inr h
  unfold digits
  simp only [htake, hdrop, Bool.true_and, Bool.false_or, Bool.or_eq_true,
    wellSpaced_digits numeral.nonempty numeral.digits_only, beq_iff_eq,
    bne_iff_ne]
  exact if_pos hzero

/-- A word of an integer is in base ten. -/
theorem integer?_eq_decimalInteger? (numeral : Numeral)
    (negative : Bool) :
    integer? (numeral.word negative)
      = decimalInteger? (numeral.word negative) := by
  obtain ⟨hx, ho, hb⟩ := numeral.no_base_letter negative
  unfold integer?
  split
  · next heq => exact absurd (by simp [heq]) hx
  · next heq => exact absurd (by simp [heq]) ho
  · next heq => exact absurd (by simp [heq]) hb
  · rfl

/-- The digits of a word of an integer, and its sign. -/
theorem signedDigits_word (numeral : Numeral) (negative : Bool) :
    signedDigits false (numeral.word negative)
      = some ((negative, numeral.digits), []) := by
  have hdigits := digits_numeral numeral
  cases negative with
  | true =>
      show (digits 10 false numeral.digits).map _ = _
      rw [hdigits]
      rfl
  | false =>
      show signedDigits false numeral.digits = _
      unfold signedDigits
      split
      · next rest heq =>
          have hminus := numeral.digits_only '-' (by simp [heq])
          exact absurd hminus (by decide)
      · rw [hdigits]
        rfl

/-- A word of an integer is that integer, if it fits. -/
theorem integer?_word (numeral : Numeral) (negative : Bool) :
    integer? (numeral.word negative)
      = Word.signed64? (numeral.toInt negative) := by
  rw [integer?_eq_decimalInteger?, decimalInteger?, signedDigits_word,
    Numeral.toInt, ← value_digits numeral.digits_only]

end Number

-- ============================================================= literals

/-- A literal on one line. -/
inductive Literal where
  | integer (negative : Bool) (numeral : Numeral)
  | boolean (choice : Bool)
  | string (pieces : List Piece)

namespace Literal

/-- The word of a boolean. -/
def choiceWord : Bool → List Char
  | true => "true".toList
  | false => "false".toList

/-- A literal as it is written. -/
def written : Literal → List Char
  | integer negative numeral => numeral.word negative
  | boolean choice => choiceWord choice
  | string pieces => '"' :: (pieces.flatMap Piece.written ++ ['"'])

/-- The integer that a literal is, however large. -/
def integer? : Literal → Option Int
  | integer negative numeral => some (numeral.toInt negative)
  | _ => none

/-- The boolean that a literal is. -/
def boolean? : Literal → Option Bool
  | boolean choice => some choice
  | _ => none

/-- The text that a literal is. -/
def text? : Literal → Option (List Char)
  | string pieces => some (pieces.map Piece.meant)
  | _ => none

/-- Whether a literal is within the range of what it is: an integer has
to be one of 64 bits. -/
def InRange (literal : Literal) : Prop :=
  ∀ n ∈ literal.integer?, -2 ^ 63 ≤ n ∧ n < 2 ^ 63

instance (literal : Literal) : Decidable literal.InRange :=
  inferInstanceAs (Decidable (∀ n ∈ literal.integer?, _))

/-- The token that a literal is. -/
def token : Literal → Token
  | integer negative numeral => .word (numeral.word negative)
  | boolean choice => .word (choiceWord choice)
  | string pieces => .string false (pieces.map Piece.meant)

/-- The value that a literal means, if it is in range. -/
def value? : Literal → Option Value
  | integer negative numeral =>
      (Word.signed64? (numeral.toInt negative)).map .integer
  | boolean choice => some (.boolean choice)
  | string pieces => some (.string (pieces.map Piece.meant))

end Literal

-- =============================================================== tokens

/-- Nothing follows on the line. -/
def AtLineEnd (rest : List Char) : Prop :=
  ∀ c, rest.head? = some c → c = '\n'

theorem atLineEnd_nil : AtLineEnd [] := by
  intro c hc
  cases hc

theorem atLineEnd_feed (text : List Char) : AtLineEnd ('\n' :: text) := by
  intro c hc
  cases hc
  rfl

namespace Token

/-- A character of a word is no mark. -/
theorem mark?_eq_none {c : Char} (h : isWordChar c = true) :
    mark? c = none := by
  unfold mark?
  split
  all_goals first | rfl | exact absurd h (by decide)

/-- A word is read as one token where no character of a word follows. -/
theorem read_word {word rest : List Char} (hne : word ≠ [])
    (hword : ∀ c ∈ word, isWordChar c = true)
    (hrest : ∀ c, rest.head? = some c → isWordChar c = false) :
    read (word ++ rest) = some (.word word, rest) := by
  obtain ⟨c, run, rfl⟩ := List.exists_cons_of_ne_nil hne
  obtain ⟨hc, hrun⟩ := List.forall_mem_cons.1 hword
  obtain ⟨htake, hdrop⟩ := takeWhile_dropWhile_append hrun hrest
  have hother : ∀ d, isWordChar d = false → c ≠ d := by
    rintro d hd rfl
    rw [hc] at hd
    cases hd
  have hblank : ¬ Quoted.isLineBlank c = true := by
    simp [Quoted.isLineBlank, hother ' ' (by decide),
      hother '\t' (by decide)]
  have hquote : ¬ (c = '"' ∨ c = '\x27') := by
    simp [hother '"' (by decide), hother '\x27' (by decide)]
  rw [List.cons_append, read, mark?_eq_none hc]
  simp only [if_neg hblank, if_neg (hother '#' (by decide)),
    if_neg hquote, if_pos hc, htake, hdrop]

end Token

theorem AtLineEnd.not_isWordChar {rest : List Char} (h : AtLineEnd rest) :
    ∀ c, rest.head? = some c → Token.isWordChar c = false := by
  intro c hc
  rw [h c hc]
  decide

namespace Literal

theorem isWordChar_of_mem_word {numeral : Numeral} {negative : Bool}
    {c : Char} (h : c ∈ numeral.word negative) :
    Token.isWordChar c = true := by
  rcases Numeral.mem_word h with rfl | hdigit
  · decide
  · simp [Token.isWordChar, Char.isAlphanum, hdigit]

/-- A literal that ends its line is read as its token. -/
theorem read_written (literal : Literal) {rest : List Char}
    (h : AtLineEnd rest) :
    Token.read (literal.written ++ rest) = some (literal.token, rest) := by
  cases literal with
  | integer negative numeral =>
      obtain ⟨c, run, hword, -⟩ := numeral.word_eq_cons negative
      have hne : numeral.word negative ≠ [] := by
        rw [hword]
        exact List.cons_ne_nil _ _
      exact Token.read_word hne (fun _ => isWordChar_of_mem_word)
        h.not_isWordChar
  | boolean choice =>
      have hword : (choiceWord choice).all Token.isWordChar = true := by
        cases choice with
        | false => decide
        | true => decide
      have hne : choiceWord choice ≠ [] := by
        cases choice with
        | false => decide
        | true => decide
      exact Token.read_word hne (List.all_eq_true.1 hword)
        h.not_isWordChar
  | string pieces =>
      have hquote : rest.head? ≠ some '"' := fun hhead =>
        absurd (h '"' hhead) (by decide)
      have hstring := Quoted.string_pieces pieces hquote
      simp only [written, token, List.cons_append, List.append_assoc,
        List.nil_append]
      rw [Token.read]
      simp only [Token.mark?]
      rw [if_neg (by decide), if_neg (by decide), if_pos (by decide),
        hstring]
      rfl

end Literal

-- =============================================================== values

/-- Nothing follows on the line. -/
def LineOver (tokens : List Token) : Prop :=
  ∀ token, tokens.head? = some token → token = .newline

theorem lineOver_nil : LineOver [] := by
  intro token htoken
  cases htoken

theorem lineOver_newline (tokens : List Token) :
    LineOver (.newline :: tokens) := by
  intro token htoken
  cases htoken
  rfl

theorem LineOver.eq_nil_or_cons {tokens : List Token}
    (h : LineOver tokens) :
    tokens = [] ∨ ∃ rest, tokens = .newline :: rest := by
  cases tokens with
  | nil => exact .inl rfl
  | cons token rest => exact .inr ⟨rest, by rw [h token rfl]⟩

namespace Numeral

variable (numeral : Numeral) (negative : Bool)

/-- A word of an integer does not look like a date. -/
theorem looksLikeDate_word :
    looksLikeDate (numeral.word negative) = false := by
  obtain ⟨c, rest, hword, -, hrest⟩ := numeral.word_eq_cons negative
  have hupper : 'T' ∉ numeral.word negative :=
    not_mem_word (by decide) (by decide)
  have hlower : 't' ∉ numeral.word negative :=
    not_mem_word (by decide) (by decide)
  have hhyphen : '-' ∉ rest := fun hmem =>
    absurd (hrest '-' hmem) (by decide)
  rw [hword] at hupper hlower
  unfold looksLikeDate
  rw [hword, List.tail_cons]
  simp only [List.contains_eq_mem, hupper, hlower, hhyphen]
  rfl

/-- Nor like a number in another base. -/
theorem hasBase_word : hasBase (numeral.word negative) = false := by
  obtain ⟨hx, ho, hb⟩ := numeral.no_base_letter negative
  unfold hasBase
  split
  · next c rest heq =>
      have hc : c ∈ numeral.word negative := by simp [heq]
      have hne : ∀ {d : Char}, d ∉ numeral.word negative → c ≠ d :=
        fun hd heq => hd (heq ▸ hc)
      simp [hne hx, hne ho, hne hb]
  · rfl

/-- Nor like the words for what is no number. -/
theorem digitless?_word :
    Number.digitless? (numeral.word negative) = none := by
  have hletter : 'n' ∉ numeral.word negative :=
    not_mem_word (by decide) (by decide)
  unfold Number.digitless?
  split
  · next heq => exact absurd (by simp [heq]) hletter
  · next heq => exact absurd (by simp [heq]) hletter
  · next heq => exact absurd (by simp [heq]) hletter
  · next heq => exact absurd (by simp [heq]) hletter
  · rfl

/-- A word of an integer that ends its line is that integer, if it
fits. -/
theorem number_word {tokens : List Token} (h : LineOver tokens) :
    number (numeral.word negative) tokens
      = (Word.signed64? (numeral.toInt negative)).map fun n =>
        (.scalar (.integer n), tokens) := by
  have hlower : 'e' ∉ numeral.word negative :=
    not_mem_word (by decide) (by decide)
  have hupper : 'E' ∉ numeral.word negative :=
    not_mem_word (by decide) (by decide)
  have hexponent : ¬ ((numeral.word negative).contains 'e'
      || (numeral.word negative).contains 'E') = true := by
    simp [hlower, hupper]
  unfold number
  rw [hasBase_word, if_neg Bool.false_ne_true, if_neg hexponent,
    digitless?_word, Number.integer?_word]
  obtain rfl | ⟨rest, rfl⟩ := h.eq_nil_or_cons
  · rfl
  · rfl

theorem wordValue_word {tokens : List Token} (h : LineOver tokens) :
    wordValue (numeral.word negative) tokens
      = (Word.signed64? (numeral.toInt negative)).map fun n =>
        (.scalar (.integer n), tokens) := by
  obtain ⟨c, rest, hword, hc, -⟩ := numeral.word_eq_cons negative
  have hne : ∀ (text : List Char) (letter : Char), letter ∈ text →
      letter ≠ '-' → letter.isDigit = false →
      numeral.word negative ≠ text := by
    rintro text letter hmem hminus hdigit rfl
    exact not_mem_word hminus hdigit hmem
  have hnumber : numberOrDate (numeral.word negative) tokens
      = number (numeral.word negative) tokens := by
    unfold numberOrDate
    rw [looksLikeDate_word, if_neg Bool.false_ne_true]
    obtain rfl | ⟨rest, rfl⟩ := h.eq_nil_or_cons
    · rfl
    · rfl
  have hspecial : ¬ (numeral.word negative = ['i', 'n', 'f']
      ∨ numeral.word negative = ['n', 'a', 'n']) :=
    not_or.2 ⟨hne _ 'n' (by simp) (by decide) (by decide),
      hne _ 'n' (by simp) (by decide) (by decide)⟩
  unfold wordValue
  rw [if_neg (hne _ 't' (by simp) (by decide) (by decide)),
    if_neg (hne _ 'f' (by simp) (by decide) (by decide)),
    if_neg hspecial, ← number_word numeral negative h, ← hnumber, hword]
  exact if_pos hc

end Numeral

/-- The token of a literal that ends its line is the value that the
literal means. -/
theorem Literal.value_token (literal : Literal) (fuel : Nat)
    {tokens : List Token} (h : LineOver tokens) :
    value (fuel + 1) (literal.token :: tokens)
      = literal.value?.map fun v => (.scalar v, tokens) := by
  cases literal with
  | integer negative numeral =>
      show value (fuel + 1) (.word (numeral.word negative) :: tokens) = _
      rw [value, numeral.wordValue_word negative h]
      show _ = ((Word.signed64? _).map Value.integer).map _
      rw [Option.map_map]
      rfl
  | boolean choice =>
      cases choice with
      | false => rfl
      | true => rfl
  | string pieces => rfl

/-- A literal means no value just if it is out of range. -/
theorem Literal.value?_eq_none_iff (literal : Literal) :
    literal.value? = none ↔ ¬ literal.InRange := by
  cases literal with
  | integer negative numeral =>
      have hrange : (integer negative numeral).InRange
          ↔ Word.Fits (numeral.toInt negative) := by
        rw [Word.fits_iff]
        exact ⟨fun h => h _ rfl, fun h n hn => by cases hn; exact h⟩
      rw [hrange, value?, Option.map_eq_none_iff, Word.signed64?_eq_none_iff]
  | boolean choice => simp [value?, InRange, integer?]
  | string pieces => simp [value?, InRange, integer?]

end DiceNotation.Toml
