/-
Basic strings as they are written on one line. A string is a row of
pieces, each a character that stands for itself or an escape, and a
piece carries what makes it well-formed: whatever pieces are put in a
row, they are a string.

Reading goes piece by piece. A piece is read as the character that it
means and what is behind it is left alone (`body_piece`); no piece
starts with a quote, so the first quote behind the opening one is the
closing one, and a string without pieces is told from an opening of
three quotes by what follows it, which is no third quote.
-/
import DiceNotation.Toml.Quoted

namespace DiceNotation.Toml

-- =============================================================== digits

/-- A hexadecimal digit, in one case or the other. -/
structure HexDigit where
  value : Fin 16
  capital : Bool

namespace HexDigit

/-- A hexadecimal digit as it is written. -/
def char (d : HexDigit) : Char :=
  if d.capital then (Nat.digitChar d.value).toUpper
  else Nat.digitChar d.value

/-- The number that digits are, behind digits of a given number. -/
def number (sofar : Nat) (digits : List HexDigit) : Nat :=
  digits.foldl (fun n d => n * 16 + d.value) sofar

theorem hexDigit?_char (d : HexDigit) :
    Text.hexDigit? d.char = some d.value.val := by
  have hall : ∀ (value : Fin 16) (capital : Bool),
      Text.hexDigit? (HexDigit.mk value capital).char
        = some value.val := by
    decide
  exact hall d.value d.capital

theorem hexValue?_map_char (digits : List HexDigit) (sofar : Nat) :
    Text.hexValue? sofar (digits.map char) = some (number sofar digits) := by
  induction digits generalizing sofar with
  | nil => rfl
  | cons d digits ih =>
      rw [List.map_cons, Text.hexValue?, hexDigit?_char]
      exact ih (sofar * 16 + d.value)

/-- A hexadecimal digit is no carriage return. -/
theorem char_ne_return (d : HexDigit) : d.char ≠ '\r' := by
  have hall : ∀ (value : Fin 16) (capital : Bool),
      (HexDigit.mk value capital).char ≠ '\r' := by
    decide
  exact hall d.value d.capital

end HexDigit

-- =============================================================== pieces

/-- Whether a character may stand in a basic string for itself: every one
may but the quote, the backslash and the control characters, of which
the tab may. -/
structure StandsForItself (c : Char) : Prop where
  not_control : c = '\t' ∨ 0x20 ≤ c.toNat
  not_delete : c.toNat ≠ 0x7f
  not_quote : c ≠ '"'
  not_backslash : c ≠ '\\'

/-- The escapes of one letter, and the characters that they mean. -/
def letterEscapes : List (Char × Char) :=
  [('b', '\x08'), ('t', '\t'), ('n', '\n'), ('f', '\x0c'), ('r', '\r'),
    ('"', '"'), ('\\', '\\')]

/-- A piece of a basic string, which means one character. -/
inductive Piece where
  | plain (c : Char) (stands : StandsForItself c)
  | letter (name meant : Char) (known : (name, meant) ∈ letterEscapes)
  /-- A character by its number, of four digits or of eight. -/
  | code (long : Bool) (digits : List HexDigit)
    (length_eq : digits.length = if long then 8 else 4)
    (valid : (HexDigit.number 0 digits).isValidChar)

namespace Piece

/-- A piece as it is written. -/
def written : Piece → List Char
  | plain c _ => [c]
  | letter name _ _ => ['\\', name]
  | code long digits _ _ =>
      '\\' :: (if long then 'U' else 'u') :: digits.map HexDigit.char

/-- The character that a piece means. -/
def meant : Piece → Char
  | plain c _ => c
  | letter _ meant _ => meant
  | code _ digits _ _ => Char.ofNat (HexDigit.number 0 digits)

/-- A piece starts with a character, and not with a quote. -/
theorem written_eq_cons (piece : Piece) :
    ∃ c rest, piece.written = c :: rest ∧ c ≠ '"' := by
  cases piece with
  | plain c stands => exact ⟨c, [], rfl, stands.not_quote⟩
  | letter name meant known => exact ⟨'\\', [name], rfl, by decide⟩
  | code long digits length_eq valid =>
      exact ⟨'\\', _, rfl, by decide⟩

/-- A carriage return is written as an escape. -/
theorem return_not_mem_written (piece : Piece) : '\r' ∉ piece.written := by
  cases piece with
  | plain c stands =>
      intro h
      obtain rfl := List.mem_singleton.1 h
      rcases stands.not_control with h | h
      · exact absurd h (by decide)
      · exact absurd h (by decide)
  | letter name meant known =>
      have hname : ∀ pair ∈ letterEscapes, '\r' ∉ ['\\', pair.1] := by
        decide
      exact hname _ known
  | code long digits length_eq valid =>
      have hmark : '\r' ≠ (if long then 'U' else 'u') := by
        cases long with
        | false => decide
        | true => decide
      simp only [written, List.mem_cons, List.mem_map, not_or]
      refine ⟨by decide, hmark, ?_⟩
      rintro ⟨d, -, hd⟩
      exact d.char_ne_return hd

-- ============================================================== reading

/-- An escape of one letter is read as what it means. -/
theorem escape_letter {name meant : Char}
    (known : (name, meant) ∈ letterEscapes) (more : List Char) :
    Quoted.escape false (name :: more) = some ([meant], more) := by
  simp only [letterEscapes, List.mem_cons, Prod.mk.injEq,
    List.not_mem_nil, or_false] at known
  rcases known with ⟨rfl, rfl⟩ | ⟨rfl, rfl⟩ | ⟨rfl, rfl⟩ | ⟨rfl, rfl⟩
    | ⟨rfl, rfl⟩ | ⟨rfl, rfl⟩ | ⟨rfl, rfl⟩ <;> rfl

/-- A number is read with as many digits as it has. -/
theorem byCode_digits {digits : List HexDigit}
    (valid : (HexDigit.number 0 digits).isValidChar) (more : List Char) :
    Quoted.byCode digits.length (digits.map HexDigit.char ++ more)
      = some ([Char.ofNat (HexDigit.number 0 digits)], more) := by
  have hlength : (digits.map HexDigit.char).length = digits.length :=
    List.length_map ..
  have hlong : ¬ (digits.map HexDigit.char ++ more).length
      < digits.length := by
    rw [List.length_append, hlength]
    omega
  unfold Quoted.byCode
  rw [if_neg hlong, List.take_left' hlength, List.drop_left' hlength,
    HexDigit.hexValue?_map_char]
  exact if_pos valid

/-- A piece is read as the character that it means, and nothing behind it
is. -/
theorem body_piece (piece : Piece) (fuel : Nat) (more : List Char) :
    Quoted.body '"' false (fuel + 1) (piece.written ++ more)
      = Quoted.prepend [piece.meant] (Quoted.body '"' false fuel more) := by
  cases piece with
  | plain c stands =>
      have hline : c ≠ '\n' := by
        rintro rfl
        rcases stands.not_control with h | h
        · exact absurd h (by decide)
        · exact absurd h (by decide)
      have hplain : Quoted.isPlain c = true := by
        simp only [Quoted.isPlain, Bool.or_eq_true, Bool.and_eq_true,
          beq_iff_eq, bne_iff_ne, decide_eq_true_eq]
        exact stands.not_control.imp_right fun h => ⟨h, stands.not_delete⟩
      simp only [written, meant, List.singleton_append, Quoted.body]
      rw [if_neg stands.not_quote, if_neg hline,
        if_neg fun h => stands.not_backslash h.1, if_pos hplain]
  | letter name meant known =>
      have hescape := escape_letter known more
      simp only [written, Piece.meant, List.cons_append, List.nil_append,
        Quoted.body]
      rw [if_neg (by decide), if_neg (by decide), if_pos (by decide),
        hescape]
  | code long digits length_eq valid =>
      have hcode := byCode_digits valid more
      have hescape : Quoted.escape false
          ((if long then 'U' else 'u') :: digits.map HexDigit.char ++ more)
            = some ([Char.ofNat (HexDigit.number 0 digits)], more) := by
        cases long with
        | false =>
            rw [← hcode, length_eq]
            rfl
        | true =>
            rw [← hcode, length_eq]
            rfl
      simp only [written, Piece.meant, List.cons_append, Quoted.body]
      rw [if_neg (by decide), if_neg (by decide), if_pos (by decide)]
      rw [List.cons_append] at hescape
      rw [hescape]

/-- Pieces are read up to the closing quote, given fuel for each. -/
theorem body_pieces (pieces : List Piece) (rest : List Char) {fuel : Nat}
    (h : pieces.length < fuel) :
    Quoted.body '"' false fuel (pieces.flatMap written ++ '"' :: rest)
      = some (pieces.map meant, rest) := by
  induction pieces generalizing fuel with
  | nil =>
      obtain ⟨fuel, rfl⟩ := Nat.exists_eq_add_one_of_ne_zero
        (Nat.ne_of_gt h)
      rfl
  | cons piece pieces ih =>
      rw [List.length_cons] at h
      obtain ⟨fuel, rfl⟩ := Nat.exists_eq_add_one_of_ne_zero
        (Nat.ne_of_gt (Nat.lt_of_le_of_lt (Nat.zero_le _) h))
      rw [List.flatMap_cons, List.append_assoc, body_piece,
        ih (by omega)]
      rfl

/-- Each piece takes up some text. -/
theorem length_le_flatMap_written (pieces : List Piece) :
    pieces.length ≤ (pieces.flatMap written).length := by
  induction pieces with
  | nil => exact Nat.zero_le _
  | cons piece pieces ih =>
      obtain ⟨c, rest, hwritten, -⟩ := piece.written_eq_cons
      rw [List.flatMap_cons, hwritten, List.length_append,
        List.length_cons, List.length_cons]
      omega

end Piece

/-- A text that does not start with two more quotes is a string on one
line. -/
theorem Quoted.string_of_single {mark : Char} {text : List Char}
    (h : ∀ rest, text ≠ mark :: mark :: rest) :
    Quoted.string mark text
      = (Quoted.body mark false (text.length + 1) text).map
        fun (found, rest) => ((false, found), rest) := by
  unfold Quoted.string
  split
  · next a b rest =>
      have hnot : ¬ (a = mark ∧ b = mark) := by
        rintro ⟨rfl, rfl⟩
        exact h rest rfl
      exact if_neg hnot
  · rfl

/-- A string is read as what its pieces mean, if no quote follows it. -/
theorem Quoted.string_pieces (pieces : List Piece) {rest : List Char}
    (h : rest.head? ≠ some '"') :
    Quoted.string '"' (pieces.flatMap Piece.written ++ '"' :: rest)
      = some ((false, pieces.map Piece.meant), rest) := by
  have hlength := Piece.length_le_flatMap_written pieces
  rw [string_of_single, Piece.body_pieces]
  · rfl
  · rw [List.length_append]
    omega
  · intro others heq
    cases pieces with
    | nil =>
        -- two quotes, of which the second closes the string
        injection heq with hquote hrest
        rw [hrest] at h
        exact h rfl
    | cons piece pieces =>
        obtain ⟨c, text, hwritten, hc⟩ := piece.written_eq_cons
        rw [List.flatMap_cons, hwritten] at heq
        injection heq with hquote
        exact hc hquote

end DiceNotation.Toml
