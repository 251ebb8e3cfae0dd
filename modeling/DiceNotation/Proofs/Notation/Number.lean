/-
Numbers at the front of a text. A read of a number takes all the digits
that come next or none of them: where their value does not fit a word,
no shorter run of them stands in for it, and the text is left with its
leading blanks as it was.

# Which digits are meant

The blanks and the digits that a read passes over are told apart by what
they are, the longest beginning of one kind (`LongestFront`), and not by
the functions that cut them off. There is one such beginning of each
text, so the existence of the parts in the law below is a choice of
names and nothing more.

# What a sign changes

A sign in front hands the text behind it to the read without a sign,
which passes over blanks once more. What that read finds is negated or
not, and where it finds nothing the sign has not been read either.
-/
import DiceNotation.Proofs.Notation.Cut
import DiceNotation.Proofs.Walk
import Mathlib.Algebra.Ring.Nat

namespace DiceNotation

open Reader Decimal

-- ======================================================== longest fronts

/-- The longest beginning of a text with characters of one kind only. -/
structure LongestFront (kind : Char → Bool) (front text : List Char) :
    Prop where
  isFront : front <+: text
  ofKind : ∀ c ∈ front, kind c = true
  longest : ∀ other, other <+: text → (∀ c ∈ other, kind c = true) →
    other <+: front

/-- The characters that are taken while they are of a kind are the
longest beginning of that kind. -/
theorem longestFront_takeWhile (kind : Char → Bool) (text : List Char) :
    LongestFront kind (text.takeWhile kind) text := by
  refine ⟨List.takeWhile_prefix _, fun c hc => List.mem_takeWhile_imp hc,
    ?_⟩
  intro other hother hkind
  obtain ⟨rest, rfl⟩ := hother
  rw [List.takeWhile_append_of_pos hkind]
  exact List.prefix_append _ _

-- ======================================================== without a sign

/-- Whether digits are a number: there are some, and their value fits a
word. -/
def IsNumber (digits : List Char) : Prop :=
  digits ≠ [] ∧ value digits ≤ 2 ^ 32 - 1

instance (digits : List Char) : Decidable (IsNumber digits) :=
  inferInstanceAs (Decidable (_ ∧ _))

theorem isNumber_iff {digits : List Char} :
    IsNumber digits ↔ digits ≠ [] ∧ value digits < UInt32.size := by
  have hsize : UInt32.size = 2 ^ 32 - 1 + 1 := rfl
  rw [IsNumber, hsize, Nat.lt_succ_iff]

/-- The digits that come next are read with their value if they are a
number, and else nothing is read. -/
theorem unsigned_eq (text : List Char) :
    unsigned text
      = if IsNumber (leadingDigits (Text.skipBlank text)) then
          some (UInt32.ofNat (value (leadingDigits (Text.skipBlank text))),
            afterDigits (Text.skipBlank text))
        else none := by
  unfold unsigned readWord
  generalize Text.skipBlank text = ahead
  by_cases hnone : leadingDigits ahead = []
  · have hnot : ¬ IsNumber [] := fun h => h.1 rfl
    rw [hnone, if_neg hnot]
    rfl
  · rw [if_neg (by simpa using hnone)]
    by_cases hsize : value (leadingDigits ahead) < UInt32.size
    · rw [if_pos hsize, if_pos (isNumber_iff.2 ⟨hnone, hsize⟩)]
      rfl
    · rw [if_neg hsize, if_neg fun h => hsize (isNumber_iff.1 h).2]
      rfl

namespace Walk

theorem step_unsigned (walk : Walk) :
    walk.step .unsigned
      = walk.taken (fun n => .number n.toNat) (unsigned walk.rest) :=
  ask_eq Cursor.readUnsigned_follows walk _

theorem step_signed (walk : Walk) :
    walk.step .signed
      = walk.taken .number (signed walk.rest) :=
  ask_eq Cursor.readSigned_follows walk _

/-- A step that reads a number answers with its value, or leaves the
walk alone. -/
theorem step_unsigned_eq_ite (text : List Char) (marks : List Cursor) :
    (⟨⟨text⟩, marks⟩ : Walk).step .unsigned
      = if IsNumber (leadingDigits (Text.skipBlank text)) then
          (.number (value (leadingDigits (Text.skipBlank text))),
            ⟨⟨afterDigits (Text.skipBlank text)⟩, marks⟩)
        else (.missing, ⟨⟨text⟩, marks⟩) := by
  simp only [step_unsigned, unsigned_eq, taken]
  by_cases h : IsNumber (leadingDigits (Text.skipBlank text))
  · have hvalue := UInt32.toNat_ofNat_of_lt' (isNumber_iff.1 h).2
    simp only [if_pos h, hvalue]
  · simp only [if_neg h]

end Walk

-- =========================================================== with a sign

/-- The signs, and what they multiply a number by. -/
inductive IsSign : Char → Int → Prop
  | plus : IsSign '+' 1
  | minus : IsSign '-' (-1)

/-- The two signs are tokens of their own. -/
theorem eq_of_ofChar?_sign {c : Char} :
    (Token.ofChar? c = some .plus → c = '+')
      ∧ (Token.ofChar? c = some .minus → c = '-') := by
  unfold Token.ofChar?
  split <;> simp

/-- Behind a sign a number is read as without one, and takes the sign. -/
theorem signed_of_sign {mark : Char} {sign : Int} (hsign : IsSign mark sign)
    {text after : List Char} (h : Text.skipBlank text = mark :: after) :
    signed text
      = (unsigned after).map fun (n, rest) => (sign * n.toNat, rest) := by
  unfold signed
  cases hsign with
  | plus =>
      have hplus : letter '+' text = some ((), after) :=
        (Token.letter_eq_some_iff rfl).2 ⟨'+', h, rfl⟩
      simp only [hplus, Int.one_mul]
  | minus =>
      have hminus : letter '-' text = some ((), after) :=
        (Token.letter_eq_some_iff rfl).2 ⟨'-', h, rfl⟩
      have hplus : letter '+' text = none :=
        letter_eq_none_of_letter (e := '-') rfl rfl (by decide) hminus
      simp only [hplus, hminus, Int.neg_one_mul]

/-- Where no sign comes next, a number is read as without one. -/
theorem signed_of_no_sign {text : List Char}
    (hplus : (Text.skipBlank text).head? ≠ some '+')
    (hminus : (Text.skipBlank text).head? ≠ some '-') :
    signed text
      = (unsigned text).map fun (n, rest) => ((n.toNat : Int), rest) := by
  have hnone : ∀ (e : Char) (token : Token),
      Token.ofChar? e = some token →
      (∀ c, Token.ofChar? c = some token → c = e) →
      (Text.skipBlank text).head? ≠ some e → letter e text = none := by
    intro e token he honly hhead
    refine Option.eq_none_iff_forall_ne_some.2 fun ((), rest) hletter => ?_
    obtain ⟨c, hskip, hc⟩ := (Token.letter_eq_some_iff he).1 hletter
    rw [hskip, honly c hc] at hhead
    exact hhead rfl
  unfold signed
  rw [hnone '+' .plus rfl (fun _ => eq_of_ofChar?_sign.1) hplus,
    hnone '-' .minus rfl (fun _ => eq_of_ofChar?_sign.2) hminus]

namespace Walk

/-- A number is never too large for its sign: without it, it fits a
32-bit word. -/
theorem natAbs_of_signed {text rest : List Char} {n : Int}
    (h : signed text = some (n, rest)) : n.natAbs ≤ 2 ^ 32 - 1 := by
  obtain ⟨w, hw⟩ := signed_eq_some_iff.1 h
  have hlt := UInt32.toNat_lt w
  rcases hw with ⟨-, -, -, rfl⟩ | ⟨-, -, -, rfl⟩ | ⟨-, -, -, rfl⟩ <;> omega

/-- Numbers are read as a whole and with exact limits. Behind the blanks
of a text, and with the longest run of digits there, a read without a
sign finds the value of all those digits and leaves what is behind them
if there are digits and their value is below 2^32, and else it finds
nothing and leaves the text. A read with a sign is that read behind a
sign, with the number negated or not, and where that finds nothing the
text is left with its sign; where no sign comes next it is that read
itself. No number it finds is beyond 2^32 either way. -/
theorem numbers_whole (text : List Char) (marks : List Cursor) :
    ∃ blanks ahead digits rest : List Char,
      text = blanks ++ ahead ∧ LongestFront Text.isBlank blanks text
      ∧ ahead = digits ++ rest ∧ LongestFront Char.isDigit digits ahead
      ∧ (⟨⟨text⟩, marks⟩ : Walk).step .unsigned
        = (if digits ≠ [] ∧ value digits ≤ 2 ^ 32 - 1 then
            (.number (value digits), ⟨⟨rest⟩, marks⟩)
          else (.missing, ⟨⟨text⟩, marks⟩))
      ∧ (∀ mark sign after, IsSign mark sign → ahead = mark :: after →
        (∀ n next, (⟨⟨after⟩, marks⟩ : Walk).step .unsigned
            = (.number n, next) →
          (⟨⟨text⟩, marks⟩ : Walk).step .signed = (.number (sign * n), next))
        ∧ (((⟨⟨after⟩, marks⟩ : Walk).step .unsigned).1 = .missing →
          (⟨⟨text⟩, marks⟩ : Walk).step .signed
            = (.missing, ⟨⟨text⟩, marks⟩)))
      ∧ (ahead.head? ≠ some '+' → ahead.head? ≠ some '-' →
        (⟨⟨text⟩, marks⟩ : Walk).step .signed
          = (⟨⟨text⟩, marks⟩ : Walk).step .unsigned)
      ∧ ∀ n next, (⟨⟨text⟩, marks⟩ : Walk).step .signed = (.number n, next) →
        n.natAbs ≤ 2 ^ 32 - 1 := by
  refine ⟨text.takeWhile Text.isBlank, Text.skipBlank text,
    leadingDigits (Text.skipBlank text), afterDigits (Text.skipBlank text),
    List.takeWhile_append_dropWhile.symm, longestFront_takeWhile _ _,
    (leadingDigits_append_afterDigits _).symm, longestFront_takeWhile _ _,
    step_unsigned_eq_ite text marks, ?_, ?_, ?_⟩
  · intro mark sign after hsign hahead
    have hsigned := signed_of_sign hsign hahead
    cases hfound : unsigned after with
    | none =>
        have hmissing : (⟨⟨text⟩, marks⟩ : Walk).step .signed
            = (.missing, ⟨⟨text⟩, marks⟩) := by
          simp only [step_signed, hsigned, hfound, Option.map_none, taken]
        refine ⟨fun n next hread => ?_, fun _ => hmissing⟩
        simp only [step_unsigned, hfound, taken] at hread
        cases hread
    | some found =>
        obtain ⟨w, rest⟩ := found
        have hnumber : (⟨⟨after⟩, marks⟩ : Walk).step .unsigned
            = (.number w.toNat, ⟨⟨rest⟩, marks⟩) := by
          simp only [step_unsigned, hfound, taken]
        rw [hnumber]
        refine ⟨fun n next hread => ?_, fun hmissing => by cases hmissing⟩
        cases hread
        simp only [step_signed, hsigned, hfound, Option.map_some, taken]
  · intro hplus hminus
    have hsigned := signed_of_no_sign hplus hminus
    cases hfound : unsigned text with
    | none =>
        simp only [step_signed, step_unsigned, hsigned, hfound,
          Option.map_none, taken]
    | some found =>
        simp only [step_signed, step_unsigned, hsigned, hfound,
          Option.map_some, taken]
  · intro n next hread
    cases hfound : signed text with
    | none =>
        simp only [step_signed, hfound, taken] at hread
        cases hread
    | some found =>
        simp only [step_signed, hfound, taken] at hread
        cases hread
        exact natAbs_of_signed hfound

example : signed " - 0015;".toList = some (-15, [';']) := by
  decide +kernel

end Walk

end DiceNotation
