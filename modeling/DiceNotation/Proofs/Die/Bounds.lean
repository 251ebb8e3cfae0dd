/-
The bounds of a die as exact sums. The program forms them in 64 bits and
stops at the ends of the range; the exact bounds are the integers it
would reach without an end, sums over the groups in which the nesting
plays no part.

The two agree as long as no step is stopped, and within the limits of
the notation none is: a group stays below 2^50 on either side, since it
has fewer than 2^17 dice, and there are fewer than 2^13 groups, so that
every sum on the way stays below 2^63.
-/
import DiceNotation.Die.Bounds
import DiceNotation.Proofs.Notation.Limits
import DiceNotation.Proofs.Word
import Mathlib.Algebra.Ring.Nat

namespace DiceNotation

open Word (Fits)

-- ======================================================== exact bounds

namespace Group

/-- The total of a group when every die shows one, as an integer. -/
def exactLowest (g : Group) : Int :=
  g.count.toNat + g.bonus.toInt

/-- The total of a group when every die shows its number of sides, as an
integer. -/
def exactHighest (g : Group) : Int :=
  g.count.toNat * g.sides.toNat + g.bonus.toInt

/-- A die shows no less than one on each side. -/
theorem count_le_product (g : Group) :
    g.count.toNat ≤ g.count.toNat * g.sides.toNat :=
  Nat.le_mul_of_pos_right _ g.sides.toNat_pos

theorem exactLowest_le (g : Group) : g.exactLowest ≤ g.exactHighest := by
  have hle := g.count_le_product
  unfold exactLowest exactHighest
  omega

end Group

namespace Die

/-- The lowest total of a die, as an integer. -/
def exactLowest (die : Die) : Int :=
  (die.groups.map Group.exactLowest).sum

/-- The highest total of a die, as an integer. -/
def exactHighest (die : Die) : Int :=
  (die.groups.map Group.exactHighest).sum

@[simp] theorem exactLowest_group (g : Group) :
    (Die.group g).exactLowest = g.exactLowest := by
  simp [exactLowest]

@[simp] theorem exactHighest_group (g : Group) :
    (Die.group g).exactHighest = g.exactHighest := by
  simp [exactHighest]

@[simp] theorem exactLowest_join (left right : Die) :
    (Die.join left right).exactLowest
      = left.exactLowest + right.exactLowest := by
  simp [exactLowest]

@[simp] theorem exactHighest_join (left right : Die) :
    (Die.join left right).exactHighest
      = left.exactHighest + right.exactHighest := by
  simp [exactHighest]

theorem exactLowest_le (die : Die) :
    die.exactLowest ≤ die.exactHighest := by
  induction die with
  | group g => simpa using g.exactLowest_le
  | join left right ihl ihr =>
      rw [exactLowest_join, exactHighest_join]
      omega

end Die

-- ==================================================== no step is stopped

/-- No step of the bounds of a group is stopped. -/
structure Group.BoundsFit (g : Group) : Prop where
  lowest : Fits ((Word.widen g.count.val).toInt + g.bonus.toInt64.toInt)
  product : Fits (g.count.val.toNat * g.sides.val.toNat)
  highest : Fits ((Word.mulSaturating g.count.val g.sides.val).toInt
    + g.bonus.toInt64.toInt)

/-- No step of the bounds of a die is stopped. -/
def Die.BoundsFit : Die → Prop
  | .group g => g.BoundsFit
  | .join left right =>
      left.BoundsFit ∧ right.BoundsFit
        ∧ Fits (left.lowest.toInt + right.lowest.toInt)
        ∧ Fits (left.highest.toInt + right.highest.toInt)

/-- The bounds of a group are then exact. -/
theorem Group.BoundsFit.lowest_toInt {g : Group} (h : g.BoundsFit) :
    g.lowest.toInt = g.exactLowest := by
  unfold Group.lowest
  rw [Word.addSaturating_toInt h.lowest, Word.widen_toInt,
    Int32.toInt_toInt64]
  rfl

theorem Group.BoundsFit.highest_toInt {g : Group} (h : g.BoundsFit) :
    g.highest.toInt = g.exactHighest := by
  unfold Group.highest
  rw [Word.addSaturating_toInt h.highest,
    Word.mulSaturating_toInt h.product, Int32.toInt_toInt64]
  rfl

namespace Die

/-- The bounds of a die are exact when no step of them is stopped. -/
theorem BoundsFit.toInt {die : Die} (h : die.BoundsFit) :
    die.lowest.toInt = die.exactLowest
      ∧ die.highest.toInt = die.exactHighest := by
  induction die with
  | group g =>
      rw [exactLowest_group, exactHighest_group]
      exact ⟨h.lowest_toInt, h.highest_toInt⟩
  | join left right ihl ihr =>
      obtain ⟨hleft, hright, hlowest, hhighest⟩ := h
      obtain ⟨hll, hlh⟩ := ihl hleft
      obtain ⟨hrl, hrh⟩ := ihr hright
      rw [exactLowest_join, exactHighest_join, ← hll, ← hrl, ← hlh,
        ← hrh]
      exact ⟨Word.addSaturating_toInt hlowest,
        Word.addSaturating_toInt hhighest⟩

-- ============================================================== limits

/-- The sides of a join keep to the limits that the join keeps. -/
theorem WithinLimits.left {left right : Die}
    (h : (Die.join left right).WithinLimits) : left.WithinLimits := by
  obtain ⟨hgroups, hcount⟩ := h
  rw [groups_join, List.length_append] at hgroups
  refine ⟨by omega, ?_⟩
  intro g hg
  exact hcount g (by simp [hg])

theorem WithinLimits.right {left right : Die}
    (h : (Die.join left right).WithinLimits) : right.WithinLimits := by
  obtain ⟨hgroups, hcount⟩ := h
  rw [groups_join, List.length_append] at hgroups
  refine ⟨by omega, ?_⟩
  intro g hg
  exact hcount g (by simp [hg])

/-- The only group of a die keeps to the limit on its count. -/
theorem WithinLimits.count_toNat_le {g : Group}
    (h : (Die.group g).WithinLimits) : g.count.toNat ≤ 100000 := by
  rw [← maxCount_toNat]
  exact UInt32.le_iff_toNat_le.1 (h.count_le g (by simp))

/-- Few dice have a product of sides far inside the range. -/
theorem WithinLimits.product_lt {g : Group}
    (h : (Die.group g).WithinLimits) :
    g.count.toNat * g.sides.toNat < 2 ^ 49 := by
  have hcount := h.count_toNat_le
  have hsides : g.sides.toNat < 2 ^ 32 := g.sides.val.toNat_lt
  have hle : g.count.toNat * g.sides.toNat ≤ 100000 * 2 ^ 32 :=
    Nat.mul_le_mul hcount (Nat.le_of_lt hsides)
  omega

/-- The exact bounds of few dice lie far inside the range. -/
theorem WithinLimits.group_bounds {g : Group}
    (h : (Die.group g).WithinLimits) :
    -2 ^ 50 ≤ g.exactLowest ∧ g.exactHighest ≤ 2 ^ 50 := by
  have hproduct := h.product_lt
  have hlow := g.bonus.le_toInt
  have hhigh := g.bonus.toInt_lt
  unfold Group.exactLowest Group.exactHighest
  omega

/-- The exact bounds of a die grow with its groups at most. -/
theorem WithinLimits.exact_bounds {die : Die} (h : die.WithinLimits) :
    -2 ^ 50 * (die.groups.length : Int) ≤ die.exactLowest
      ∧ die.exactHighest ≤ 2 ^ 50 * (die.groups.length : Int) := by
  induction die with
  | group g => simpa using h.group_bounds
  | join left right ihl ihr =>
      have hleft := ihl h.left
      have hright := ihr h.right
      rw [exactLowest_join, exactHighest_join, groups_join,
        List.length_append]
      omega

/-- They therefore fit, and so does all between them. -/
theorem WithinLimits.fits {die : Die} (h : die.WithinLimits) {n : Int}
    (hlow : die.exactLowest ≤ n) (hhigh : n ≤ die.exactHighest) :
    Fits n := by
  have hbounds := h.exact_bounds
  have hgroups : die.groups.length ≤ 1000 := h.groups_le
  rw [Word.fits_iff]
  omega

theorem WithinLimits.group_boundsFit {g : Group}
    (h : (Die.group g).WithinLimits) : g.BoundsFit := by
  have hproduct : Fits (g.count.val.toNat * g.sides.val.toNat) := by
    have hlt : g.count.val.toNat * g.sides.val.toNat < 2 ^ 49 :=
      h.product_lt
    rw [Word.fits_iff]
    omega
  have hordered := g.exactLowest_le
  refine ⟨?_, hproduct, ?_⟩
  · rw [Word.widen_toInt, Int32.toInt_toInt64]
    show Fits g.exactLowest
    exact h.fits (by simp) (by simpa using hordered)
  · rw [Word.mulSaturating_toInt hproduct, Int32.toInt_toInt64]
    show Fits g.exactHighest
    exact h.fits (by simpa using hordered) (by simp)

/-- No step of the bounds of a die within the limits is stopped. -/
theorem WithinLimits.boundsFit {die : Die} (h : die.WithinLimits) :
    die.BoundsFit := by
  induction die with
  | group g => exact h.group_boundsFit
  | join left right ihl ihr =>
      have hleft := ihl h.left
      have hright := ihr h.right
      have hordered := (Die.join left right).exactLowest_le
      refine ⟨hleft, hright, ?_, ?_⟩
      · rw [hleft.toInt.1, hright.toInt.1, ← exactLowest_join]
        exact h.fits (Int.le_refl _) hordered
      · rw [hleft.toInt.2, hright.toInt.2, ← exactHighest_join]
        exact h.fits hordered (Int.le_refl _)

end Die

end DiceNotation
