/-
Reading at the front of a text. A reader either finds what it looks for
and gives it with the text that follows, or finds nothing; a reader that
finds nothing has used nothing up, since the caller still holds the text
it started from. Every basic reader passes over leading blanks first,
and readers are put together one behind the other.

The two properties stated for each reader are that what follows is an
end of the text read from (`Advances`), and, for those that must use a
character up, that it is a shorter one (`Consumes`). Loops over readers
end because of the second.
-/
import DiceNotation.Decimal
import DiceNotation.Text.Blank
import DiceNotation.Text.LowerCase

namespace DiceNotation

/-- Reads a value at the front of a text and gives what follows. -/
abbrev Reader (α : Type) := List Char → Option (α × List Char)

namespace Reader

-- ======================================================= the two laws

/-- What follows is an end of the text. -/
def Advances {α : Type} (read : Reader α) : Prop :=
  ∀ ⦃text v rest⦄, read text = some (v, rest) → rest <:+ text

/-- What follows is an end of the text, and not all of it. -/
def Consumes {α : Type} (read : Reader α) : Prop :=
  ∀ ⦃text v rest⦄, read text = some (v, rest) →
    rest <:+ text ∧ rest.length < text.length

theorem Consumes.advances {α : Type} {read : Reader α}
    (h : Consumes read) : Advances read :=
  fun _ _ _ hread => (h hread).1

theorem Advances.length_le {α : Type} {read : Reader α}
    (h : Advances read) {text rest : List Char} {v : α}
    (hread : read text = some (v, rest)) : rest.length ≤ text.length :=
  (h hread).length_le

-- ========================================================== in a row

/-- A value that needs no reading. -/
def found {α : Type} (v : α) : Reader α := fun text => some (v, text)

/-- One read and then another, which may hang on what the first has
found. -/
def andThen {α β : Type} (read : Reader α) (next : α → Reader β) :
    Reader β := fun text =>
  match read text with
  | none => none
  | some (v, text) => next v text

/-- A value that is checked once it is read, or what stands for it if
there is none. -/
def checked {α β : Type} (read : Reader α) (check : α → Option β)
    (absent : Option β) : Reader β := fun text =>
  match read text with
  | none => absent.map (·, text)
  | some (v, text) => (check v).map (·, text)

section

variable {α β : Type} {read : Reader α} {next : α → Reader β}

theorem found_advances (v : α) : Advances (found v) := by
  intro text w rest h
  cases h
  exact List.suffix_refl _

/-- Reads in a row succeed exactly if each of them does, on what the one
before has left. -/
theorem andThen_eq_some_iff {text rest : List Char} {w : β} :
    read.andThen next text = some (w, rest)
      ↔ ∃ v middle, read text = some (v, middle)
        ∧ next v middle = some (w, rest) := by
  unfold andThen
  cases read text with
  | none => simp
  | some result =>
      obtain ⟨v, middle⟩ := result
      constructor
      · intro h
        exact ⟨v, middle, rfl, h⟩
      · rintro ⟨v, middle, hread, h⟩
        cases hread
        exact h

theorem Advances.andThen (h : Advances read)
    (hnext : ∀ v, Advances (next v)) : Advances (read.andThen next) := by
  intro text w rest hread
  obtain ⟨v, middle, hfirst, hsecond⟩ := andThen_eq_some_iff.1 hread
  exact (hnext v hsecond).trans (h hfirst)

/-- Of reads in a row one that uses text up is enough. -/
theorem Consumes.andThen (h : Consumes read)
    (hnext : ∀ v, Advances (next v)) : Consumes (read.andThen next) := by
  intro text w rest hread
  obtain ⟨v, middle, hfirst, hsecond⟩ := andThen_eq_some_iff.1 hread
  obtain ⟨hsuffix, hlength⟩ := h hfirst
  have hafter := hnext v hsecond
  exact ⟨hafter.trans hsuffix,
    Nat.lt_of_le_of_lt hafter.length_le hlength⟩

theorem Advances.andThen_consumes (h : Advances read)
    (hnext : ∀ v, Consumes (next v)) : Consumes (read.andThen next) := by
  intro text w rest hread
  obtain ⟨v, middle, hfirst, hsecond⟩ := andThen_eq_some_iff.1 hread
  obtain ⟨hsuffix, hlength⟩ := hnext v hsecond
  have hbefore := h hfirst
  exact ⟨hsuffix.trans hbefore,
    Nat.lt_of_lt_of_le hlength hbefore.length_le⟩

variable {check : α → Option β} {absent : Option β}

/-- A value is what was read, if it passes the check, or stands for
nothing at all. -/
theorem checked_eq_some_iff {text rest : List Char} {w : β} :
    read.checked check absent text = some (w, rest)
      ↔ (∃ v, read text = some (v, rest) ∧ check v = some w)
        ∨ (read text = none ∧ absent = some w ∧ rest = text) := by
  unfold checked
  cases read text with
  | none =>
      cases absent with
      | none => simp
      | some w => simp [eq_comm]
  | some result =>
      obtain ⟨v, middle⟩ := result
      simp only [Option.map_eq_some_iff, Prod.mk.injEq, Option.some.injEq]
      constructor
      · intro h
        obtain ⟨w, hcheck, rfl, rfl⟩ := h
        exact .inl ⟨v, ⟨rfl, rfl⟩, hcheck⟩
      · intro h
        obtain ⟨v, ⟨rfl, rfl⟩, hcheck⟩ | ⟨hnone, -, -⟩ := h
        · exact ⟨w, hcheck, rfl, rfl⟩
        · cases hnone

theorem Advances.checked (h : Advances read) :
    Advances (read.checked check absent) := by
  intro text w rest hread
  obtain ⟨v, hfound, -⟩ | ⟨-, -, rfl⟩ := checked_eq_some_iff.1 hread
  · exact h hfound
  · exact List.suffix_refl _

/-- What may not be absent uses text up if reading it does. -/
theorem Consumes.checked (h : Consumes read) :
    Consumes (read.checked check none) := by
  intro text w rest hread
  obtain ⟨v, hfound, -⟩ | ⟨-, habsent, -⟩ := checked_eq_some_iff.1 hread
  · exact h hfound
  · cases habsent

end

-- ============================================================= numbers

/-- An unsigned number: all the digits that come next, if their value
fits a 32-bit word. -/
def unsigned : Reader UInt32 := fun text =>
  (Decimal.readWord (Text.skipBlank text)).toOption

/-- The characters of an expected text, in either case, at the very
front of a text. -/
def sameLetters : List Char → Reader Unit
  | [], text => some ((), text)
  | _ :: _, [] => none
  | e :: expected, c :: text =>
      if Text.sameLetter e c then sameLetters expected text else none

/-- An expected text, in either case. -/
def literal (expected : List Char) : Reader Unit := fun text =>
  sameLetters expected (Text.skipBlank text)

/-- One expected character, in either case. -/
def letter (expected : Char) : Reader Unit := literal [expected]

/-- An integer, whose sign may be left out and may stand apart from the
digits. A sign that no number follows is not read either. -/
def signed : Reader Int := fun text =>
  match letter '+' text with
  | some ((), rest) =>
      (unsigned rest).map fun (n, rest) => ((n.toNat : Int), rest)
  | none =>
      match letter '-' text with
      | some ((), rest) =>
          (unsigned rest).map fun (n, rest) => (-(n.toNat : Int), rest)
      | none =>
          (unsigned text).map fun (n, rest) => ((n.toNat : Int), rest)

-- ================================================= using the text up

theorem unsigned_consumes : Consumes unsigned := by
  intro text v rest h
  unfold unsigned at h
  cases hword : Decimal.readWord (Text.skipBlank text) with
  | error e => rw [hword] at h; cases h
  | ok read =>
      rw [hword] at h
      cases h
      obtain ⟨hsuf, hlen⟩ := Decimal.readWord_length hword
      have hskip := Text.skipBlank_isSuffix text
      exact ⟨hsuf.trans hskip, Nat.lt_of_lt_of_le hlen hskip.length_le⟩

theorem sameLetters_advances (expected : List Char) :
    Advances (sameLetters expected) := by
  induction expected with
  | nil =>
      intro text v rest h
      cases h
      exact List.suffix_refl _
  | cons e expected ih =>
      intro text v rest h
      match text with
      | [] => cases h
      | c :: text =>
          simp only [sameLetters] at h
          split at h
          · exact (ih h).trans (List.suffix_cons _ _)
          · cases h

theorem literal_advances (expected : List Char) :
    Advances (literal expected) :=
  fun text _ _ h => (sameLetters_advances expected h).trans
    (Text.skipBlank_isSuffix text)

theorem letter_consumes (expected : Char) :
    Consumes (letter expected) := by
  intro text v rest h
  refine ⟨literal_advances _ h, ?_⟩
  have hskip := (Text.skipBlank_isSuffix text).length_le
  unfold letter literal at h
  match htext : Text.skipBlank text with
  | [] => rw [htext] at h; cases h
  | c :: after =>
      rw [htext] at h hskip
      simp only [sameLetters] at h
      split at h
      · cases h
        exact hskip
      · cases h

theorem signed_consumes : Consumes signed := by
  intro text v rest h
  unfold signed at h
  split at h
  · next after hsign =>
      obtain ⟨⟨n, last⟩, hread, heq⟩ := Option.map_eq_some_iff.1 h
      cases heq
      obtain ⟨hsuf, hlen⟩ := unsigned_consumes hread
      obtain ⟨hsuf', hlen'⟩ := letter_consumes _ hsign
      exact ⟨hsuf.trans hsuf', Nat.lt_trans hlen hlen'⟩
  · split at h
    · next after hsign =>
        obtain ⟨⟨n, last⟩, hread, heq⟩ := Option.map_eq_some_iff.1 h
        cases heq
        obtain ⟨hsuf, hlen⟩ := unsigned_consumes hread
        obtain ⟨hsuf', hlen'⟩ := letter_consumes _ hsign
        exact ⟨hsuf.trans hsuf', Nat.lt_trans hlen hlen'⟩
    · obtain ⟨⟨n, last⟩, hread, heq⟩ := Option.map_eq_some_iff.1 h
      cases heq
      exact unsigned_consumes hread

end Reader

end DiceNotation
