/-
How many words give a face. A die with `s` sides uses a word `v` for the
face `f` when `v * s` falls on the first `s * q` numbers of the stretch
of the face, where `q` is how often `s` goes into 2^32. The multiples of
`s` among any `s * q` numbers in a row are `q` many, so each face has the
same share of the words, wherever its stretch begins.

The words of a share follow each other, and the first is the one already
known to give the face (`wordFor`).
-/
import DiceNotation.Proofs.Random.Face
import Mathlib.SetTheory.Cardinal.Finite

namespace DiceNotation.Face

/-- A die uses a word, for a face. -/
structure Gives (sides : Positive) (word face : UInt32) : Prop where
  used : accepts sides.val word = true
  face : ofWord sides.val word = face

/-- How many words each face of a die has. -/
def share (sides : Positive) : Nat := 2 ^ 32 / sides.toNat

/-- The lower halves that a die uses are those below the multiple of the
sides next below 2^32. -/
theorem accepts_iff_share (sides : Positive) (word : UInt32) :
    accepts sides.val word = true
      ↔ word.toNat * sides.toNat % 2 ^ 32 < share sides * sides.toNat := by
  have hlt : sides.toNat < 2 ^ 32 := sides.val.toNat_lt
  have hrest : (2 ^ 32 - sides.toNat) % sides.toNat
      = 2 ^ 32 % sides.toNat := by
    rw [← Nat.mod_eq_sub_mod (Nat.le_of_lt hlt)]
  have hsplit := Nat.div_add_mod' (2 ^ 32) sides.toNat
  rw [accepts_iff, hrest]
  unfold share
  omega

/-- A word is used for a face when its product falls on the front of the
stretch of the face. -/
theorem gives_iff_product (sides : Positive) {face : UInt32}
    (h : On sides face) (word : UInt32) :
    Gives sides word face
      ↔ (face.toNat - 1) * 2 ^ 32 ≤ word.toNat * sides.toNat
        ∧ word.toNat * sides.toNat
          < (face.toNat - 1) * 2 ^ 32 + share sides * sides.toNat := by
  have hpos := h.pos
  have hshare : share sides * sides.toNat ≤ 2 ^ 32 :=
    Nat.div_mul_le_self ..
  constructor
  · rintro ⟨hused, rfl⟩
    rw [accepts_iff_share] at hused
    rw [ofWord_toNat]
    omega
  · intro hproduct
    refine ⟨?_, ?_⟩
    · rw [accepts_iff_share]
      omega
    · rw [← UInt32.toNat_inj, ofWord_toNat]
      omega

/-- The multiples of a number among numbers in a row: where the first of
them is known, there are as many as the row has room for. -/
theorem multiple_between_iff {s a first low : Nat} (hlow : low < s)
    (hfirst : first * s = a + low) (q m : Nat) :
    (a ≤ m * s ∧ m * s < a + q * s) ↔ first ≤ m ∧ m < first + q := by
  constructor
  · intro h
    obtain ⟨hfrom, hto⟩ := h
    constructor
    · by_contra hlt
      have hbelow : (m + 1) * s ≤ first * s :=
        Nat.mul_le_mul_right _ (by omega)
      rw [Nat.succ_mul] at hbelow
      omega
    · by_contra hge
      have habove : (first + q) * s ≤ m * s :=
        Nat.mul_le_mul_right _ (by omega)
      rw [Nat.add_mul] at habove
      omega
  · intro h
    obtain ⟨hfrom, hto⟩ := h
    have hlower : first * s ≤ m * s := Nat.mul_le_mul_right _ hfrom
    have hupper : (m + 1) * s ≤ (first + q) * s :=
      Nat.mul_le_mul_right _ hto
    rw [Nat.succ_mul, Nat.add_mul] at hupper
    omega

/-- The words of a face follow each other, from the first one on. -/
theorem gives_iff (sides : Positive) {face : UInt32} (h : On sides face)
    (word : UInt32) :
    Gives sides word face
      ↔ (wordFor sides face).toNat ≤ word.toNat
        ∧ word.toNat < (wordFor sides face).toNat + share sides := by
  obtain ⟨low, hlow, hfirst⟩ := wordFor_mul sides h
  rw [gives_iff_product sides h, multiple_between_iff hlow hfirst]

/-- There is room for the share of every face. -/
theorem wordFor_add_share_le (sides : Positive) {face : UInt32}
    (h : On sides face) :
    (wordFor sides face).toNat + share sides ≤ 2 ^ 32 := by
  obtain ⟨low, hlow, hfirst⟩ := wordFor_mul sides h
  have hle := h.le
  have hpos := h.pos
  have hshare : share sides * sides.toNat ≤ 2 ^ 32 :=
    Nat.div_mul_le_self ..
  have hstretch : face.toNat * 2 ^ 32 ≤ sides.toNat * 2 ^ 32 :=
    Nat.mul_le_mul_right _ hle
  -- one word more would have a product beyond that of all words
  by_contra hgt
  have hbeyond : (2 ^ 32 + 1) * sides.toNat
      ≤ ((wordFor sides face).toNat + share sides) * sides.toNat :=
    Nat.mul_le_mul_right _ (by omega)
  rw [Nat.succ_mul, Nat.add_mul, hfirst] at hbeyond
  omega

/-- A number in range, as a word and back. -/
theorem toNat_ofNat_add {first count : Nat} (h : first + count ≤ 2 ^ 32)
    (i : Fin count) : (UInt32.ofNat (first + i)).toNat = first + i := by
  apply UInt32.toNat_ofNat_of_lt'
  show first + i < 2 ^ 32
  omega

/-- Words with consecutive numbers, counted from the first one on. -/
def numbered {first count : Nat} (h : first + count ≤ 2 ^ 32) :
    {word : UInt32 // first ≤ word.toNat ∧ word.toNat < first + count}
      ≃ Fin count where
  toFun word := ⟨word.1.toNat - first, by omega⟩
  invFun i := ⟨.ofNat (first + i), by rw [toNat_ofNat_add h]; omega⟩
  left_inv := by
    rintro ⟨word, hfrom, hto⟩
    apply Subtype.ext
    show UInt32.ofNat (first + (word.toNat - first)) = word
    rw [Nat.add_sub_cancel' hfrom, UInt32.ofNat_toNat]
  right_inv := by
    intro i
    apply Fin.ext
    show (UInt32.ofNat (first + i)).toNat - first = i
    rw [toNat_ofNat_add h, Nat.add_sub_cancel_left]

/-- Every face has its share of the words, the same for all faces. -/
theorem card_gives (sides : Positive) {face : UInt32} (h : On sides face) :
    Nat.card {word : UInt32 // Gives sides word face} = share sides := by
  simp only [gives_iff sides h]
  rw [Nat.card_congr (numbered (wordFor_add_share_le sides h)),
    Nat.card_fin]

end DiceNotation.Face
