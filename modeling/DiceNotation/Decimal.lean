/-
Decimal numerals. Numbers are written with the digits of ASCII, no
leading zeros and a minus sign below zero. They are read greedily: the
leading digits of a text, however many and with any leading zeros, are
one numeral. A numeral read as a 32-bit word fails for one of two
reasons, told apart here because one caller reports which: there is no
digit, or the value does not fit the word.
-/

namespace DiceNotation.Decimal

-- ============================================================= writing

/-- The numeral of a natural number. -/
def ofNat (n : Nat) : List Char :=
  Nat.toDigits 10 n

/-- The numeral of an integer. -/
def ofInt : Int → List Char
  | .ofNat n => ofNat n
  | .negSucc n => '-' :: ofNat (n + 1)

-- ============================================================= reading

/-- The digits a text starts with. -/
def leadingDigits (text : List Char) : List Char :=
  text.takeWhile Char.isDigit

/-- What follows the digits a text starts with. -/
def afterDigits (text : List Char) : List Char :=
  text.dropWhile Char.isDigit

/-- The value of a run of digits. -/
def value (digits : List Char) : Nat :=
  Nat.ofDigitChars 10 digits 0

/-- Why a text does not start with a 32-bit word. -/
inductive WordError
  /-- No digit at the start. -/
  | noDigit
  /-- The leading digits exceed the word. -/
  | tooLarge
deriving DecidableEq, Repr

/-- Reads the digits a text starts with as a 32-bit word, and gives what
follows them. -/
def readWord (text : List Char) : Except WordError (UInt32 × List Char) :=
  if (leadingDigits text).isEmpty then .error .noDigit
  else if value (leadingDigits text) < UInt32.size then
    .ok (UInt32.ofNat (value (leadingDigits text)), afterDigits text)
  else .error .tooLarge

/-- A numeral and what follows it make up the text. -/
theorem leadingDigits_append_afterDigits (text : List Char) :
    leadingDigits text ++ afterDigits text = text :=
  List.takeWhile_append_dropWhile

/-- A numeral reads back as the number it was written for. -/
theorem value_ofNat (n : Nat) : value (ofNat n) = n :=
  Nat.ofDigitChars_ten_toDigits

/-- Reading a word uses at least one character up. -/
theorem readWord_length {text rest : List Char} {n : UInt32}
    (h : readWord text = .ok (n, rest)) :
    rest <:+ text ∧ rest.length < text.length := by
  unfold readWord at h
  split at h
  · cases h
  · rename_i hne
    split at h
    · cases h
      have hsplit := leadingDigits_append_afterDigits text
      refine ⟨⟨leadingDigits text, hsplit⟩, ?_⟩
      have hpos : 0 < (leadingDigits text).length := by
        rw [List.length_pos_iff]
        simpa using hne
      have hlen := congrArg List.length hsplit
      simp only [List.length_append] at hlen
      omega
    · cases h

end DiceNotation.Decimal
