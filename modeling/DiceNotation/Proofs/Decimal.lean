/-
Numerals in front of further text. A numeral is all of the digits that
come next only if no digit follows it; that is what keeps one number
from running into the next wherever numbers are written (`NoDigitAhead`).
-/
import DiceNotation.Decimal

namespace DiceNotation

/-- No digit comes next. -/
def NoDigitAhead (text : List Char) : Prop :=
  ∀ c, text.head? = some c → c.isDigit = false

theorem noDigitAhead_nil : NoDigitAhead [] := by
  intro c hc
  cases hc

theorem noDigitAhead_cons {c : Char} (h : c.isDigit = false)
    (text : List Char) : NoDigitAhead (c :: text) := by
  intro c' hc
  cases hc
  exact h

/-- Characters of one kind end where none of the kind comes next. -/
theorem takeWhile_dropWhile_append {kind : Char → Bool}
    {run text : List Char} (hrun : ∀ c ∈ run, kind c = true)
    (htext : ∀ c, text.head? = some c → kind c = false) :
    (run ++ text).takeWhile kind = run
      ∧ (run ++ text).dropWhile kind = text := by
  rw [List.takeWhile_append_of_pos hrun, List.dropWhile_append_of_pos hrun]
  cases text with
  | nil => simp
  | cons c text =>
      have hc := htext c rfl
      simp [hc]

/-- The digits of a text end where no digit comes next. -/
theorem digits_append {run text : List Char}
    (hrun : ∀ c ∈ run, c.isDigit = true) (htext : NoDigitAhead text) :
    Decimal.leadingDigits (run ++ text) = run
      ∧ Decimal.afterDigits (run ++ text) = text :=
  takeWhile_dropWhile_append hrun htext

theorem isDigit_of_mem_ofNat (n : Nat) :
    ∀ c ∈ Decimal.ofNat n, c.isDigit = true := by
  intro c hc
  exact Nat.isDigit_of_mem_toDigits (by decide) (by decide) hc

/-- The numeral of a natural number starts with a digit. -/
theorem exists_digit_of_ofNat (n : Nat) :
    ∃ c run, Decimal.ofNat n = c :: run ∧ c.isDigit = true := by
  obtain ⟨c, run, hnumeral⟩ := List.exists_cons_of_ne_nil
    (Nat.toDigits_ne_nil (n := n) (b := 10))
  refine ⟨c, run, hnumeral, isDigit_of_mem_ofNat n c ?_⟩
  rw [show Decimal.ofNat n = c :: run from hnumeral]
  exact List.mem_cons_self ..

/-- No numeral but that of zero starts with a zero. -/
theorem eq_zero_of_ofNat_eq_cons {n : Nat} {run : List Char}
    (h : Decimal.ofNat n = '0' :: run) : n = 0 := by
  induction n using Nat.strongRecOn generalizing run with
  | ind n ih =>
      unfold Decimal.ofNat at h
      by_cases hn : n < 10
      · have hdigit : ∀ d < 10, Nat.digitChar d = '0' → d = 0 := by decide
        rw [Nat.toDigits_of_lt_base hn] at h
        injection h with h
        exact hdigit n hn h
      · -- the first digit is that of a smaller number
        rw [Nat.toDigits_of_base_le (by decide) (by omega)] at h
        obtain ⟨c, front, hfront⟩ := List.exists_cons_of_ne_nil
          (Nat.toDigits_ne_nil (n := n / 10) (b := 10))
        rw [hfront, List.cons_append] at h
        injection h with hc
        rw [hc] at hfront
        have hzero := ih (n / 10) (by omega) hfront
        omega

end DiceNotation
