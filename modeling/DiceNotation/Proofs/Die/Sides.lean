/-
The largest number of sides of a die, and how many dice it has. Both are
facts about the groups, in whatever nesting: a limit is kept by the
largest number of sides if every group keeps it, and the dice are those
of all groups.

One inequality ties the sides to the bounds of the totals. A group whose
dice have `s` sides has totals at least `s - 1` apart, since it has a
die; and the width of a join is the sum of the widths of its sides. So
no group has more sides than the whole die has totals.
-/
import DiceNotation.Proofs.Die.Bounds

namespace DiceNotation

namespace Die

-- ======================================================== largest of all

/-- The largest number of sides keeps to a limit if every group does. -/
theorem largestSides_le_iff {die : Die} {limit : Nat} :
    die.largestSides.toNat ≤ limit
      ↔ ∀ g ∈ die.groups, g.sides.toNat ≤ limit := by
  induction die with
  | group g => simp [largestSides, Positive.toNat]
  | join left right ihl ihr =>
      rw [largestSides, UInt32.toNat_max, Nat.max_le, ihl, ihr,
        groups_join, List.forall_mem_append]

/-- No group has more sides than the largest number of sides. -/
theorem sides_le_largestSides {die : Die} :
    ∀ g ∈ die.groups, g.sides.toNat ≤ die.largestSides.toNat :=
  largestSides_le_iff.1 (Nat.le_refl _)

/-- Dice of the same groups have the same largest number of sides. -/
theorem largestSides_congr {a b : Die} (h : a.groups = b.groups) :
    a.largestSides = b.largestSides := by
  rw [← UInt32.toNat_inj]
  apply Nat.le_antisymm
  · rw [largestSides_le_iff, h]
    exact sides_le_largestSides
  · rw [largestSides_le_iff, ← h]
    exact sides_le_largestSides

theorem largestSides_pos (die : Die) : 0 < die.largestSides.toNat := by
  induction die with
  | group g => exact g.sides.toNat_pos
  | join left right ihl _ =>
      rw [largestSides, UInt32.toNat_max]
      exact Nat.lt_of_lt_of_le ihl (Nat.le_max_left ..)

-- ============================================================= the width

/-- The totals of a group are at least as far apart as the faces of one
of its dice. -/
theorem sides_le_width (g : Group) :
    (g.sides.toNat : Int) ≤ g.exactHighest - g.exactLowest + 1 := by
  have hcount := g.count.toNat_pos
  -- one die makes for the width; the others can only add to it
  obtain ⟨others, hothers⟩ : ∃ n, g.count.toNat = n + 1 :=
    ⟨g.count.toNat - 1, by omega⟩
  have hmore : others ≤ others * g.sides.toNat :=
    Nat.le_mul_of_pos_right _ g.sides.toNat_pos
  have hproduct : g.count.toNat * g.sides.toNat
      = others * g.sides.toNat + g.sides.toNat := by
    rw [hothers, Nat.succ_mul]
  unfold Group.exactHighest Group.exactLowest
  omega

/-- A die has as many totals as sides, at the least. -/
theorem largestSides_le_width (die : Die) :
    (die.largestSides.toNat : Int)
      ≤ die.exactHighest - die.exactLowest + 1 := by
  induction die with
  | group g =>
      rw [exactHighest_group, exactLowest_group]
      exact sides_le_width g
  | join left right ihl ihr =>
      have hleft := left.exactLowest_le
      have hright := right.exactLowest_le
      rw [exactHighest_join, exactLowest_join, largestSides,
        UInt32.toNat_max]
      omega

-- ============================================================== the dice

/-- How many dice a die expression has in all its groups. -/
def diceCount (die : Die) : Nat :=
  (die.groups.map fun g => g.count.toNat).sum

@[simp] theorem diceCount_group (g : Group) :
    (Die.group g).diceCount = g.count.toNat := by
  simp [diceCount]

@[simp] theorem diceCount_join (left right : Die) :
    (Die.join left right).diceCount
      = left.diceCount + right.diceCount := by
  simp [diceCount]

/-- Within the limits there are at most a hundred million dice. -/
theorem WithinLimits.diceCount_le {die : Die} (h : die.WithinLimits) :
    die.diceCount ≤ 100000000 := by
  have hgroup : die.diceCount ≤ 100000 * die.groups.length := by
    induction die with
    | group g => simpa using h.count_toNat_le
    | join left right ihl ihr =>
        have hleft := ihl h.left
        have hright := ihr h.right
        rw [diceCount_join, groups_join, List.length_append]
        omega
  have hgroups : die.groups.length ≤ 1000 := h.groups_le
  omega

end Die

end DiceNotation
