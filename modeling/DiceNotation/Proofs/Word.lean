/-
Words of fixed width as numbers. The ways into a word are exact: what
they let through stands for the number it came from, and they let
through all that can stand for one. Saturating sums and products are the
sums and products of the numbers as long as these are in range, and in
any case the sums and products stopped at its ends (`clamp`), which
keeps their order.
-/
import DiceNotation.Word
import Mathlib.Algebra.Ring.Int.Defs

namespace DiceNotation

-- ====================================================== positive words

namespace Positive

/-- A word is let through when it is positive, and stays what it is. -/
theorem ofWord?_eq_some_iff {n : UInt32} {p : Positive} :
    ofWord? n = some p ↔ p.val = n := by
  unfold ofWord?
  constructor
  · intro h
    split at h
    · cases h
      rfl
    · cases h
  · intro h
    subst h
    rw [dif_pos p.pos]

/-- A word is let through up to a limit when it is positive and no
larger than the limit. -/
theorem atMost?_eq_some_iff {limit n : UInt32} {p : Positive} :
    atMost? limit n = some p ↔ p.val = n ∧ n ≤ limit := by
  unfold atMost?
  constructor
  · intro h
    split at h
    · next hle => exact ⟨ofWord?_eq_some_iff.1 h, hle⟩
    · cases h
  · intro h
    obtain ⟨hval, hle⟩ := h
    rw [if_pos hle]
    exact ofWord?_eq_some_iff.2 hval

end Positive

-- =================================================== exact conversions

namespace Word

/-- An integer becomes a signed 32-bit word of the same value, if there
is one. -/
theorem signed32?_eq_some_iff {n : Int} {b : Int32} :
    signed32? n = some b ↔ b.toInt = n := by
  unfold signed32?
  constructor
  · intro h
    split at h
    · next hrange =>
        cases h
        exact Int32.toInt_ofInt_of_le hrange.1
          (Int.lt_of_le_of_lt hrange.2 (Int32.toInt_lt _))
    · cases h
  · intro h
    subst h
    rw [if_pos ⟨b.minValue_le_toInt, b.toInt_le⟩, Int32.ofInt_toInt]

/-- The value of an unsigned 32-bit word becomes that word. -/
theorem unsigned32?_toNat (n : UInt32) : unsigned32? n.toNat = some n := by
  have hrange : (0 : Int) ≤ n.toNat ∧ (n.toNat : Int) < UInt32.size :=
    ⟨Int.natCast_nonneg _, Int.ofNat_lt.2 n.toNat_lt⟩
  unfold unsigned32?
  rw [if_pos hrange, Int.toNat_natCast, UInt32.ofNat_toNat]

/-- The value of a signed 64-bit word becomes that word. -/
theorem signed64?_toInt (n : Int64) : signed64? n.toInt = some n := by
  unfold signed64?
  rw [if_pos ⟨n.minValue_le_toInt, n.toInt_le⟩, Int64.ofInt_toInt]

/-- A 32-bit word keeps its value when it is widened. -/
@[simp] theorem widen_toInt (n : UInt32) : (widen n).toInt = n.toNat :=
  Int64.toInt_ofNat_of_lt (Nat.lt_trans n.toNat_lt (by decide))

-- ====================================================== 64-bit range

/-- An integer for which there is a signed 64-bit word. -/
def Fits (n : Int) : Prop :=
  Int64.minValue.toInt ≤ n ∧ n ≤ Int64.maxValue.toInt

instance (n : Int) : Decidable (Fits n) :=
  inferInstanceAs (Decidable (_ ∧ _))

/-- The range in powers of two. -/
theorem fits_iff {n : Int} : Fits n ↔ -2 ^ 63 ≤ n ∧ n < 2 ^ 63 := by
  unfold Fits
  rw [Int64.toInt_minValue, Int64.toInt_maxValue]
  omega

/-- An integer becomes no other word than the one it is the value of. -/
theorem toInt_of_signed64? {n : Int} {w : Int64} (h : signed64? n = some w) :
    w.toInt = n := by
  unfold signed64? at h
  split at h
  · next hrange =>
      cases h
      exact Int64.toInt_ofInt_of_le hrange.1 (fits_iff.1 hrange).2
  · cases h

theorem signed64?_eq_none_iff {n : Int} : signed64? n = none ↔ ¬ Fits n := by
  unfold signed64?
  split
  · next hrange =>
      constructor
      · intro h
        cases h
      · intro h
        exact absurd hrange h
  · next hrange => exact ⟨fun _ => hrange, fun _ => rfl⟩

/-- A sum in range is the sum of the numbers. -/
theorem add_toInt {a b : Int64} (h : Fits (a.toInt + b.toInt)) :
    (a + b).toInt = a.toInt + b.toInt := by
  obtain ⟨hlow, hhigh⟩ := fits_iff.1 h
  rw [Int64.toInt_add]
  exact Int.bmod_eq_of_le (by omega) (by omega)

/-- A difference in range is the difference of the numbers. -/
theorem sub_toInt {a b : Int64} (h : Fits (a.toInt - b.toInt)) :
    (a - b).toInt = a.toInt - b.toInt := by
  obtain ⟨hlow, hhigh⟩ := fits_iff.1 h
  rw [Int64.toInt_sub]
  exact Int.bmod_eq_of_le (by omega) (by omega)

/-- A saturating sum in range is the sum of the numbers. -/
theorem addSaturating_toInt {a b : Int64}
    (h : Fits (a.toInt + b.toInt)) :
    (addSaturating a b).toInt = a.toInt + b.toInt :=
  Int64.toInt_ofIntClamp h.1 h.2

/-- A saturating product in range is the product of the numbers. -/
theorem mulSaturating_toInt {a b : UInt32}
    (h : Fits (a.toNat * b.toNat)) :
    (mulSaturating a b).toInt = a.toNat * b.toNat :=
  Int64.toInt_ofIntClamp h.1 h.2

-- ================================================ stopped at the ends

/-- An integer, or the end of the 64-bit range that it lies beyond. -/
def clamp (n : Int) : Int :=
  max Int64.minValue.toInt (min n Int64.maxValue.toInt)

/-- The ends in powers of two. -/
theorem clamp_eq (n : Int) :
    clamp n = max (-2 ^ 63) (min n (2 ^ 63 - 1)) := by
  unfold clamp
  rw [Int64.toInt_minValue, Int64.toInt_maxValue]

theorem clamp_of_fits {n : Int} (h : Fits n) : clamp n = n := by
  obtain ⟨hlow, hhigh⟩ := h
  unfold clamp
  omega

/-- A larger integer is not stopped at a smaller one. -/
theorem clamp_mono {a b : Int} (h : a ≤ b) : clamp a ≤ clamp b := by
  unfold clamp
  omega

/-- No end stands between an integer in range and a larger one. -/
theorem le_clamp {a b : Int} (ha : Fits a) (h : a ≤ b) :
    a ≤ clamp b := by
  have hmono := clamp_mono h
  rwa [clamp_of_fits ha] at hmono

theorem clamp_le {a b : Int} (hb : Fits b) (h : a ≤ b) :
    clamp a ≤ b := by
  have hmono := clamp_mono h
  rwa [clamp_of_fits hb] at hmono

theorem ofIntClamp_toInt (n : Int) :
    (Int64.ofIntClamp n).toInt = clamp n := by
  have hends : Int64.minValue.toInt ≤ Int64.maxValue.toInt := by decide
  unfold Int64.ofIntClamp clamp
  split
  · split
    · rw [Int64.toInt_ofIntLE]
      omega
    · omega
  · omega

/-- A saturating sum is the sum of the numbers, stopped at an end. -/
theorem addSaturating_eq_clamp (a b : Int64) :
    (addSaturating a b).toInt = clamp (a.toInt + b.toInt) :=
  ofIntClamp_toInt _

/-- A saturating product is the product of the numbers, stopped at an
end. -/
theorem mulSaturating_eq_clamp (a b : UInt32) :
    (mulSaturating a b).toInt = clamp (a.toNat * b.toNat) :=
  ofIntClamp_toInt _

/-- A saturating sum of lower bounds is a lower bound of a sum in
range. -/
theorem addSaturating_le_add {a b x y : Int64} (hax : a ≤ x)
    (hby : b ≤ y) (hfit : Fits (x.toInt + y.toInt)) :
    addSaturating a b ≤ x + y := by
  rw [Int64.le_iff_toInt_le] at hax hby ⊢
  rw [addSaturating_eq_clamp, add_toInt hfit]
  exact clamp_le hfit (Int.add_le_add hax hby)

/-- A saturating sum of upper bounds is an upper bound of a sum in
range. -/
theorem add_le_addSaturating {a b x y : Int64} (hxa : x ≤ a)
    (hyb : y ≤ b) (hfit : Fits (x.toInt + y.toInt)) :
    x + y ≤ addSaturating a b := by
  rw [Int64.le_iff_toInt_le] at hxa hyb ⊢
  rw [addSaturating_eq_clamp, add_toInt hfit]
  exact le_clamp hfit (Int.add_le_add hxa hyb)

/-- Saturating sums keep the order of what is added. -/
theorem addSaturating_mono {a b x y : Int64} (hax : a ≤ x)
    (hby : b ≤ y) : addSaturating a b ≤ addSaturating x y := by
  rw [Int64.le_iff_toInt_le] at hax hby ⊢
  rw [addSaturating_eq_clamp, addSaturating_eq_clamp]
  exact clamp_mono (Int.add_le_add hax hby)

end Word

end DiceNotation
