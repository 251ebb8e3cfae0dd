/-
Totals of what a die shows. An outcome adds up in 64 bits: its faces one
by one, then the bonus, and at each join the totals of the sides.
`SumsFit` says of all these sums at once that none leaves the range; the
total is then the integer that the same sums give without a range.

What a die shows lies between its exact bounds, since each face lies
between one and its number of sides. And nothing between the bounds is
left out: a sum for a group is reached by giving the first die as little
as the others can make up, a sum for a join by giving the left side as
little as the right side can make up, and so on downwards.
-/
import DiceNotation.Proofs.Die.Bounds
import DiceNotation.Proofs.Roll.Shown

namespace DiceNotation

open Word (Fits)

-- ========================================================== in 64 bits

namespace Outcome

/-- No sum of faces leaves the range as they are added one by one. -/
def FacesFit : Int64 → List UInt32 → Prop
  | _, [] => True
  | sum, face :: faces =>
      Fits (sum.toInt + (Word.widen face).toInt)
        ∧ FacesFit (sum + Word.widen face) faces

/-- No sum leaves the range while an outcome is added up. -/
def SumsFit : Outcome → Prop
  | .group faces bonus _ =>
      FacesFit 0 faces
        ∧ Fits ((sumFaces faces).toInt + bonus.toInt64.toInt)
  | .join left right _ =>
      left.SumsFit ∧ right.SumsFit
        ∧ Fits (left.total.toInt + right.total.toInt)

-- ========================================================== as integers

/-- The sum of faces, as a number. -/
def exactSum (faces : List UInt32) : Nat :=
  (faces.map UInt32.toNat).sum

/-- The total of an outcome, as an integer. -/
def exactTotal : Outcome → Int
  | .group faces bonus _ => exactSum faces + bonus.toInt
  | .join left right _ => left.exactTotal + right.exactTotal

@[simp] theorem exactSum_nil : exactSum [] = 0 := rfl

@[simp] theorem exactSum_cons (face : UInt32) (faces : List UInt32) :
    exactSum (face :: faces) = face.toNat + exactSum faces := by
  simp [exactSum]

/-- Faces whose sums fit add up to their sum. -/
theorem FacesFit.foldl_toInt {sum : Int64} {faces : List UInt32}
    (h : FacesFit sum faces) :
    (faces.foldl (fun sum face => sum + Word.widen face) sum).toInt
      = sum.toInt + exactSum faces := by
  induction faces generalizing sum with
  | nil => simp
  | cons face faces ih =>
      obtain ⟨hface, hfaces⟩ := h
      rw [List.foldl_cons, ih hfaces, Word.add_toInt hface,
        Word.widen_toInt, exactSum_cons]
      omega

/-- Faces are added upwards, so that only their whole sum has to fit. -/
theorem facesFit_of_lt {sum : Int64} {faces : List UInt32}
    (hsum : 0 ≤ sum.toInt) (h : sum.toInt + exactSum faces < 2 ^ 63) :
    FacesFit sum faces := by
  induction faces generalizing sum with
  | nil => trivial
  | cons face faces ih =>
      rw [exactSum_cons] at h
      have hface : Fits (sum.toInt + (Word.widen face).toInt) := by
        rw [Word.fits_iff, Word.widen_toInt]
        omega
      have hnext : (sum + Word.widen face).toInt
          = sum.toInt + face.toNat := by
        rw [Word.add_toInt hface, Word.widen_toInt]
      refine ⟨hface, ih ?_ ?_⟩
      · rw [hnext]
        omega
      · rw [hnext]
        omega

end Outcome

namespace Die

/-- What a die shows has the exact total if its sums fit. -/
theorem Shows.total_toInt {die : Die} {outcome : Outcome}
    (h : die.Shows outcome) (hfit : outcome.SumsFit) :
    outcome.total.toInt = outcome.exactTotal := by
  induction h with
  | @group g faces _ _ =>
      obtain ⟨hfaces, hbonus⟩ := hfit
      have hsum := hfaces.foldl_toInt
      show (Outcome.sumFaces faces + g.bonus.toInt64).toInt = _
      rw [Word.add_toInt hbonus, Int32.toInt_toInt64]
      unfold Outcome.sumFaces
      rw [hsum]
      simp [Outcome.ofFaces, Outcome.exactTotal]
  | join _ _ ihl ihr =>
      obtain ⟨hleft, hright, hsum⟩ := hfit
      show (Outcome.total _ + Outcome.total _).toInt = _
      rw [Word.add_toInt hsum, ihl hleft, ihr hright]
      rfl

-- ============================================== between the exact bounds

/-- Faces of a die sum up to one each at least, and to the number of
sides each at most. -/
theorem exactSum_bounds {sides : Positive} {faces : List UInt32}
    (h : ∀ face ∈ faces, Face.On sides face) :
    faces.length ≤ Outcome.exactSum faces
      ∧ Outcome.exactSum faces ≤ faces.length * sides.toNat := by
  induction faces with
  | nil => simp
  | cons face faces ih =>
      obtain ⟨⟨hpos, hle⟩, hfaces⟩ := List.forall_mem_cons.1 h
      obtain ⟨hlow, hhigh⟩ := ih hfaces
      rw [Outcome.exactSum_cons, List.length_cons, Nat.succ_mul]
      omega

/-- What a die shows totals no less than its lowest total and no more
than its highest. -/
theorem Shows.exactTotal_bounds {die : Die} {outcome : Outcome}
    (h : die.Shows outcome) :
    die.exactLowest ≤ outcome.exactTotal
      ∧ outcome.exactTotal ≤ die.exactHighest := by
  induction h with
  | @group g faces length on =>
      obtain ⟨hlow, hhigh⟩ := exactSum_bounds on
      rw [length] at hlow hhigh
      rw [exactLowest_group, exactHighest_group]
      unfold Group.exactLowest Group.exactHighest
      show _ ≤ (Outcome.exactSum faces : Int) + g.bonus.toInt
        ∧ (Outcome.exactSum faces : Int) + g.bonus.toInt ≤ _
      omega
  | join _ _ ihl ihr =>
      rw [exactLowest_join, exactHighest_join]
      show _ ≤ Outcome.exactTotal _ + Outcome.exactTotal _
        ∧ Outcome.exactTotal _ + Outcome.exactTotal _ ≤ _
      omega

/-- What a die within the limits shows is added up without leaving the
range. -/
theorem Shows.sumsFit {die : Die} {outcome : Outcome}
    (h : die.Shows outcome) (hlimits : die.WithinLimits) :
    outcome.SumsFit := by
  induction h with
  | @group g faces length on =>
      have hbounds := (Shows.group length on).exactTotal_bounds
      obtain ⟨-, hhigh⟩ := exactSum_bounds on
      have hproduct := hlimits.product_lt
      rw [length] at hhigh
      have hfaces : Outcome.FacesFit 0 faces := by
        refine Outcome.facesFit_of_lt (Int.le_refl _) ?_
        rw [Int64.toInt_zero]
        omega
      refine ⟨hfaces, ?_⟩
      unfold Outcome.sumFaces
      rw [hfaces.foldl_toInt, Int64.toInt_zero, Int.zero_add,
        Int32.toInt_toInt64]
      exact hlimits.fits hbounds.1 hbounds.2
  | join hleft hright ihl ihr =>
      have hbounds := (Shows.join hleft hright).exactTotal_bounds
      have hfitl := ihl hlimits.left
      have hfitr := ihr hlimits.right
      refine ⟨hfitl, hfitr, ?_⟩
      rw [hleft.total_toInt hfitl, hright.total_toInt hfitr]
      exact hlimits.fits hbounds.1 hbounds.2

-- ====================================================== and all between

/-- Faces of a die reach every sum from one each to the number of sides
each. -/
theorem exists_faces (sides : Positive) (n m : Nat) (hlow : n ≤ m)
    (hhigh : m ≤ n * sides.toNat) :
    ∃ faces : List UInt32, faces.length = n
      ∧ (∀ face ∈ faces, Face.On sides face)
      ∧ Outcome.exactSum faces = m := by
  induction n generalizing m with
  | zero =>
      have hm : m = 0 := by omega
      exact ⟨[], rfl, by simp, hm.symm⟩
  | succ n ih =>
      have hpos := sides.toNat_pos
      have hsides : sides.toNat < 2 ^ 32 := sides.val.toNat_lt
      have hn : n ≤ n * sides.toNat := Nat.le_mul_of_pos_right n hpos
      rw [Nat.succ_mul] at hhigh
      -- the least that leaves a sum which the other dice can show
      obtain ⟨first, rest, hsplit, hfirst, hfirst', hrest, hrest'⟩ :
          ∃ first rest, first + rest = m ∧ 1 ≤ first
            ∧ first ≤ sides.toNat ∧ n ≤ rest
            ∧ rest ≤ n * sides.toNat :=
        ⟨max 1 (m - n * sides.toNat), m - max 1 (m - n * sides.toNat),
          by omega⟩
      obtain ⟨faces, hlength, hon, hsum⟩ := ih rest hrest hrest'
      have hval : (UInt32.ofNat first).toNat = first :=
        UInt32.toNat_ofNat_of_lt' (Nat.lt_of_le_of_lt hfirst' hsides)
      refine ⟨.ofNat first :: faces, by simp [hlength], ?_, ?_⟩
      · rw [List.forall_mem_cons]
        exact ⟨⟨by omega, by omega⟩, hon⟩
      · rw [Outcome.exactSum_cons, hval, hsum, hsplit]

/-- Every integer between the exact bounds of a die is the total of
something it can show. -/
theorem exists_shows (die : Die) {t : Int} (hlow : die.exactLowest ≤ t)
    (hhigh : t ≤ die.exactHighest) :
    ∃ outcome, die.Shows outcome ∧ outcome.exactTotal = t := by
  induction die generalizing t with
  | group g =>
      rw [exactLowest_group] at hlow
      rw [exactHighest_group] at hhigh
      unfold Group.exactLowest at hlow
      unfold Group.exactHighest at hhigh
      obtain ⟨sum, hsum⟩ : ∃ sum : Nat, (sum : Int) = t - g.bonus.toInt :=
        ⟨(t - g.bonus.toInt).toNat, by omega⟩
      obtain ⟨faces, hlength, hon, hfaces⟩ :=
        exists_faces g.sides g.count.toNat sum (by omega) (by omega)
      refine ⟨_, .group hlength hon, ?_⟩
      show (Outcome.exactSum faces : Int) + g.bonus.toInt = t
      omega
  | join left right ihl ihr =>
      rw [exactLowest_join] at hlow
      rw [exactHighest_join] at hhigh
      have hleft := left.exactLowest_le
      have hright := right.exactLowest_le
      -- the least that leaves a total which the right side can show
      obtain ⟨l, r, rfl, hl, hl', hr, hr'⟩ :
          ∃ l r, l + r = t ∧ left.exactLowest ≤ l
            ∧ l ≤ left.exactHighest ∧ right.exactLowest ≤ r
            ∧ r ≤ right.exactHighest :=
        ⟨max left.exactLowest (t - right.exactHighest),
          t - max left.exactLowest (t - right.exactHighest), by omega⟩
      obtain ⟨leftOutcome, hshowl, rfl⟩ := ihl hl hl'
      obtain ⟨rightOutcome, hshowr, rfl⟩ := ihr hr hr'
      exact ⟨_, .join hshowl hshowr, rfl⟩

end Die

end DiceNotation
