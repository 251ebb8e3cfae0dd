/-
The faces that words give. A word `v` on a die with `s` sides gives the
face `v * s / 2^32 + 1`, and is used when `v * s % 2^32` is small enough;
here both are said in numbers, with no wrapping left.

Two facts are what the rest builds on. Whatever the source, and whether
or not its words are used, what is drawn is a face of the die. And each
face has a word that is used and gives it: the first one whose product
reaches the stretch of the face. Its lower half is below `s`, and a lower
half below `s` is always used. A list of such words, one for each face,
is therefore drawn without a word passed over.
-/
import DiceNotation.Random.Face
import DiceNotation.Random.WordList
import Mathlib.Algebra.Ring.Nat

namespace DiceNotation.Face

-- ============================================================ one word

/-- The product of a word and a number of sides does not wrap. -/
theorem product_toNat (sides : Positive) (word : UInt32) :
    (product sides.val word).toNat = word.toNat * sides.toNat := by
  have hlt : word.toNat * sides.toNat < 2 ^ 32 * 2 ^ 32 :=
    Nat.mul_lt_mul'' word.toNat_lt sides.val.toNat_lt
  unfold product
  rw [UInt64.toNat_mul, UInt32.toNat_toUInt64, UInt32.toNat_toUInt64]
  exact Nat.mod_eq_of_lt hlt

/-- The product falls on the stretch of a side. -/
theorem product_div_lt (sides : Positive) (word : UInt32) :
    word.toNat * sides.toNat / 2 ^ 32 < sides.toNat := by
  rw [Nat.div_lt_iff_lt_mul (by decide), Nat.mul_comm]
  exact Nat.mul_lt_mul_of_pos_left word.toNat_lt sides.toNat_pos

/-- The face of a word is one above the upper half of the product. -/
theorem ofWord_toNat (sides : Positive) (word : UInt32) :
    (ofWord sides.val word).toNat
      = word.toNat * sides.toNat / 2 ^ 32 + 1 := by
  have hlt := product_div_lt sides word
  have hsides : sides.toNat < 2 ^ 32 := sides.val.toNat_lt
  unfold ofWord
  rw [UInt32.toNat_add, UInt64.toNat_toUInt32, UInt64.toNat_shiftRight,
    product_toNat]
  show ((word.toNat * sides.toNat) >>> 32 % 2 ^ 32 + 1) % 2 ^ 32 = _
  rw [Nat.shiftRight_eq_div_pow]
  omega

/-- The largest lower half that is used. -/
theorem bound_toNat (sides : Positive) :
    (bound sides.val).toNat
      = 2 ^ 32 - 1 - (2 ^ 32 - sides.toNat) % sides.toNat := by
  have hpos := sides.toNat_pos
  have hlt : sides.toNat < 2 ^ 32 := sides.val.toNat_lt
  have hmod : ((0 : UInt32) - sides.val).toNat % sides.val.toNat
      = (2 ^ 32 - sides.toNat) % sides.toNat := by
    rw [UInt32.toNat_sub]
    show (2 ^ 32 - sides.toNat + 0) % 2 ^ 32 % sides.toNat = _
    rw [Nat.add_zero, Nat.mod_eq_of_lt (by omega : 2 ^ 32 - sides.toNat < 2 ^ 32)]
  have hrest : (2 ^ 32 - sides.toNat) % sides.toNat < sides.toNat :=
    Nat.mod_lt _ hpos
  unfold bound
  rw [UInt32.toNat_sub_of_le, UInt32.toNat_mod, hmod]
  · rfl
  · rw [UInt32.le_iff_toNat_le, UInt32.toNat_mod, hmod]
    show _ ≤ 2 ^ 32 - 1
    omega

/-- A word is used when its lower half leaves room for the part of the
range that no multiple of the sides fills. -/
theorem accepts_iff (sides : Positive) (word : UInt32) :
    accepts sides.val word = true
      ↔ word.toNat * sides.toNat % 2 ^ 32
          + (2 ^ 32 - sides.toNat) % sides.toNat < 2 ^ 32 := by
  have hpos := sides.toNat_pos
  have hlt : sides.toNat < 2 ^ 32 := sides.val.toNat_lt
  have hrest : (2 ^ 32 - sides.toNat) % sides.toNat < sides.toNat :=
    Nat.mod_lt _ hpos
  unfold accepts
  rw [decide_eq_true_iff, UInt32.le_iff_toNat_le, bound_toNat,
    UInt64.toNat_toUInt32, product_toNat]
  omega

-- =============================================================== faces

/-- A face of a die with so many sides. -/
structure On (sides : Positive) (face : UInt32) : Prop where
  pos : 1 ≤ face.toNat
  le : face.toNat ≤ sides.toNat

theorem ofWord_on (sides : Positive) (word : UInt32) :
    On sides (ofWord sides.val word) := by
  have hlt := product_div_lt sides word
  constructor
  · rw [ofWord_toNat]
    omega
  · rw [ofWord_toNat]
    omega

section Source

variable {σ : Type} [WordSource σ]

/-- However long words are passed over, a face of the die is drawn. -/
theorem drawWithin_on (sides : Positive) (patience : Nat) (source : σ) :
    On sides (drawWithin sides.val patience source).1 := by
  induction patience generalizing source with
  | zero => exact ofWord_on sides _
  | succ patience ih =>
      simp only [drawWithin]
      split
      · exact ofWord_on sides _
      · exact ih _

theorem draw_on (sides : Positive) (source : σ) :
    On sides (draw sides source).1 :=
  drawWithin_on sides _ source

/-- The faces already drawn stand in front of those drawn next. -/
theorem drawOnto_eq (sides : Positive) (n : Nat) (source : σ)
    (drawn : List UInt32) :
    drawOnto sides n source drawn
      = (drawn.reverse ++ (drawMany sides n source).1,
          (drawMany sides n source).2) := by
  unfold drawMany
  induction n generalizing source drawn with
  | zero => simp [drawOnto]
  | succ n ih =>
      simp only [drawOnto]
      rw [ih, ih _ [_]]
      simp

@[simp] theorem drawMany_zero (sides : Positive) (source : σ) :
    drawMany sides 0 source = ([], source) := rfl

/-- One face is drawn, and the others with what is left. -/
theorem drawMany_succ (sides : Positive) (n : Nat) (source : σ) :
    drawMany sides (n + 1) source
      = ((draw sides source).1
            :: (drawMany sides n (draw sides source).2).1,
          (drawMany sides n (draw sides source).2).2) := by
  show drawOnto sides n (draw sides source).2 [_] = _
  rw [drawOnto_eq]
  rfl

theorem drawMany_length (sides : Positive) (n : Nat) (source : σ) :
    (drawMany sides n source).1.length = n := by
  induction n generalizing source with
  | zero => rfl
  | succ n ih => rw [drawMany_succ, List.length_cons, ih]

/-- All that are drawn are faces of the die. -/
theorem drawMany_on (sides : Positive) (n : Nat) (source : σ) :
    ∀ face ∈ (drawMany sides n source).1, On sides face := by
  induction n generalizing source with
  | zero => simp
  | succ n ih =>
      rw [drawMany_succ]
      intro face hface
      rcases List.mem_cons.1 hface with rfl | hface
      · exact draw_on sides source
      · exact ih _ face hface

end Source

-- ============================================================ and back

/-- A word that gives a face: the first one whose product reaches the
stretch of the face. -/
def wordFor (sides : Positive) (face : UInt32) : UInt32 :=
  .ofNat (((face.toNat - 1) * 2 ^ 32 + (sides.toNat - 1)) / sides.toNat)

/-- The product of the word lies less than the number of sides beyond
the start of the stretch. -/
theorem wordFor_mul (sides : Positive) {face : UInt32}
    (h : On sides face) :
    ∃ low < sides.toNat,
      (wordFor sides face).toNat * sides.toNat
        = (face.toNat - 1) * 2 ^ 32 + low := by
  obtain ⟨hpos, hle⟩ := h
  have hsides := sides.toNat_pos
  have hlt : sides.toNat < 2 ^ 32 := sides.val.toNat_lt
  have hdivmod := Nat.div_add_mod'
    ((face.toNat - 1) * 2 ^ 32 + (sides.toNat - 1)) sides.toNat
  have hmod := Nat.mod_lt
    ((face.toNat - 1) * 2 ^ 32 + (sides.toNat - 1)) hsides
  have hword : ((face.toNat - 1) * 2 ^ 32 + (sides.toNat - 1))
      / sides.toNat < 2 ^ 32 := by
    rw [Nat.div_lt_iff_lt_mul hsides]
    have hstretch : (face.toNat - 1) * 2 ^ 32
        ≤ (sides.toNat - 1) * 2 ^ 32 :=
      Nat.mul_le_mul_right _ (by omega)
    omega
  have hval : (wordFor sides face).toNat
      = ((face.toNat - 1) * 2 ^ 32 + (sides.toNat - 1)) / sides.toNat :=
    UInt32.toNat_ofNat_of_lt' hword
  rw [hval]
  exact ⟨sides.toNat - 1 - ((face.toNat - 1) * 2 ^ 32
    + (sides.toNat - 1)) % sides.toNat, by omega, by omega⟩

theorem ofWord_wordFor (sides : Positive) {face : UInt32}
    (h : On sides face) :
    ofWord sides.val (wordFor sides face) = face := by
  obtain ⟨low, hlow, hmul⟩ := wordFor_mul sides h
  have hlt : sides.toNat < 2 ^ 32 := sides.val.toNat_lt
  have hpos := h.pos
  rw [← UInt32.toNat_inj, ofWord_toNat, hmul]
  omega

theorem accepts_wordFor (sides : Positive) {face : UInt32}
    (h : On sides face) :
    accepts sides.val (wordFor sides face) = true := by
  obtain ⟨low, hlow, hmul⟩ := wordFor_mul sides h
  have hlt : sides.toNat < 2 ^ 32 := sides.val.toNat_lt
  have hrest : (2 ^ 32 - sides.toNat) % sides.toNat
      ≤ 2 ^ 32 - sides.toNat := Nat.mod_le _ _
  rw [accepts_iff, hmul]
  omega

/-- A list that starts with the word gives the face and keeps the
others. -/
theorem draw_wordFor (sides : Positive) {face : UInt32}
    (h : On sides face) (pending : List UInt32) (taken : Nat) :
    draw sides (WordList.mk (wordFor sides face :: pending) taken)
      = (face, ⟨pending, taken + 1⟩) := by
  show (if accepts sides.val (wordFor sides face) = true then
    (ofWord sides.val (wordFor sides face), _) else _) = _
  rw [if_pos (accepts_wordFor sides h), ofWord_wordFor sides h]

/-- A list with a word for each face gives the faces. -/
theorem drawMany_wordFor (sides : Positive) {faces : List UInt32}
    (h : ∀ face ∈ faces, On sides face) (pending : List UInt32)
    (taken : Nat) :
    drawMany sides faces.length
        (WordList.mk (faces.map (wordFor sides) ++ pending) taken)
      = (faces, ⟨pending, taken + faces.length⟩) := by
  induction faces generalizing taken with
  | nil => rfl
  | cons face faces ih =>
      obtain ⟨hface, hfaces⟩ := List.forall_mem_cons.1 h
      rw [List.length_cons, drawMany_succ, List.map_cons,
        List.cons_append, draw_wordFor sides hface, ih hfaces]
      rw [Nat.add_assoc, Nat.add_comm 1]

end DiceNotation.Face
