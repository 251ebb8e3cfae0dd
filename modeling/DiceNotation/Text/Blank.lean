/-
Blank characters and trimming. A blank is a character with the
White_Space property; the whole library means nothing else by the word,
so the reader of notation, the session and the configuration agree on
where a text begins and ends.

Trimming is two cuts: the leading blanks, and, on the reversed text, the
trailing ones. Both keep a stretch of the text they were given, so what
is left of a trimmed text never holds a character that was not there.
-/

namespace DiceNotation.Text

-- ======================================================== the property

/-- The characters with the White_Space property. -/
def isBlank (c : Char) : Bool :=
  let n := c.toNat
  n == 0x20 || (0x9 ≤ n && n ≤ 0xd) || n == 0x85 || n == 0xa0
    || n == 0x1680 || (0x2000 ≤ n && n ≤ 0x200a)
    || n == 0x2028 || n == 0x2029 || n == 0x202f || n == 0x205f
    || n == 0x3000

-- ============================================================= cutting

/-- A text without its leading blanks. -/
def skipBlank (text : List Char) : List Char :=
  text.dropWhile isBlank

/-- A text without its trailing blanks. -/
def dropTrailingBlank (text : List Char) : List Char :=
  (skipBlank text.reverse).reverse

/-- A text without the blanks on either side. -/
def trim (text : List Char) : List Char :=
  dropTrailingBlank (skipBlank text)

/-- Cutting leading blanks leaves an end of the text. -/
theorem skipBlank_isSuffix (text : List Char) :
    skipBlank text <:+ text :=
  List.dropWhile_suffix _

/-- Nothing to skip in front of a character that is no blank. -/
theorem skipBlank_cons_of_not_blank {c : Char} (rest : List Char)
    (h : isBlank c = false) : skipBlank (c :: rest) = c :: rest := by
  simp [skipBlank, h]

/-- A second cut finds nothing more to skip. -/
theorem skipBlank_skipBlank (text : List Char) :
    skipBlank (skipBlank text) = skipBlank text := by
  induction text with
  | nil => rfl
  | cons c rest ih =>
      unfold skipBlank at ih ⊢
      by_cases h : isBlank c = true
      · simpa [h] using ih
      · simp [h]

end DiceNotation.Text
