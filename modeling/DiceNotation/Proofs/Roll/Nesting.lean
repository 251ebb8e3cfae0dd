/-
Dice that differ in their nesting alone. The nesting of a die is not
written, and reading its notation nests it anew; nothing that is rolled
or shown may hang on it, then. Nothing does: the groups of a die, left
to right, decide what is drawn and in which order, and the groups of an
outcome decide its text and its total.

# Through the groups

A join rolls its right side with what the left side leaves of the
source. That is what rolling a row of groups one after the other does
(`rollGroups`), wherever the row is cut; so a die rolls the groups of
its outcome as it rolls its own row (`rollGroups_groups`), and two dice
of one row roll alike.

# Where the limits come in

Sums in 64 bits that stop at the ends of the range are not the same in
every nesting. A die whose notation can be read keeps to the limits of
the notation, though, and there no sum meets an end: totals and bounds
are sums of integers over the groups.
-/
import DiceNotation.Proofs.Die.Sides
import DiceNotation.Proofs.Notation.RoundTrip
import DiceNotation.Proofs.Roll.Range

namespace DiceNotation

-- ===================================================== groups of outcomes

namespace Outcome

/-- The groups of an outcome, left to right: the faces and the bonus of
each. -/
def groups : Outcome → List (List UInt32 × Int32)
  | .group faces bonus _ => [(faces, bonus)]
  | .join left right _ => left.groups ++ right.groups

/-- The faces of an outcome are those of its groups. -/
theorem faces_eq_flatMap (outcome : Outcome) :
    outcome.faces = outcome.groups.flatMap Prod.fst := by
  induction outcome with
  | group fs bonus total => simp [groups]
  | join left right total ihl ihr =>
      rw [faces_join, ihl, ihr, groups, List.flatMap_append]

/-- The text of an outcome, its total apart, is that of its groups, each
behind a joint but the first. -/
theorem joint_append_writtenOnto (outcome : Outcome) :
    Die.joint ++ outcome.writtenOnto []
      = outcome.groups.flatMap fun group =>
          Die.joint ++ writtenGroup group.1 group.2 := by
  -- with a joint in front of all, the first group is like every other
  induction outcome with
  | group fs bonus total => simp [groups, writtenOnto]
  | join left right total ihl ihr =>
      rw [groups, List.flatMap_append, ← ihl, ← ihr, writtenOnto,
        writtenOnto_eq left]
      simp only [List.append_assoc]

/-- Outcomes of the same groups and the same total have the same
text. -/
theorem written_congr {a b : Outcome} (hgroups : a.groups = b.groups)
    (htotal : a.total = b.total) : a.written = b.written := by
  have hjoint : Die.joint ++ a.writtenOnto []
      = Die.joint ++ b.writtenOnto [] := by
    rw [joint_append_writtenOnto, joint_append_writtenOnto, hgroups]
  have htext := List.append_cancel_left hjoint
  unfold written
  rw [writtenOnto_eq a, writtenOnto_eq b, htext, htotal]

/-- The exact total of an outcome is that of its groups. -/
theorem exactTotal_eq_sum (outcome : Outcome) :
    outcome.exactTotal
      = (outcome.groups.map fun group =>
          (exactSum group.1 + group.2.toInt : Int)).sum := by
  induction outcome with
  | group fs bonus total => simp [groups, exactTotal]
  | join left right total ihl ihr =>
      rw [groups, List.map_append, List.sum_append_int, ← ihl, ← ihr]
      rfl

end Outcome

-- ======================================================= a row of groups

section Source

variable {σ : Type} [WordSource σ]

/-- Draws the faces of groups, one group after the other, and gives them
with the bonuses. -/
def rollGroups : List Group → σ → List (List UInt32 × Int32) × σ
  | [], source => ([], source)
  | g :: more, source =>
      let (faces, source) := Face.drawMany g.sides g.count.toNat source
      let (others, source) := rollGroups more source
      ((faces, g.bonus) :: others, source)

/-- A row of groups is rolled as its front and then its back. -/
theorem rollGroups_append (front back : List Group) (source : σ) :
    rollGroups (front ++ back) source
      = ((rollGroups front source).1
            ++ (rollGroups back (rollGroups front source).2).1,
          (rollGroups back (rollGroups front source).2).2) := by
  induction front generalizing source with
  | nil => rfl
  | cons g front ih =>
      simp only [List.cons_append, rollGroups]
      rw [ih]

namespace Die

/-- A die rolls as the row of its groups does. -/
theorem rollGroups_groups (die : Die) (source : σ) :
    rollGroups die.groups source
      = ((die.roll source).1.groups, (die.roll source).2) := by
  induction die generalizing source with
  | group g => rfl
  | join left right ihl ihr =>
      rw [groups_join, rollGroups_append, ihl, ihr, roll_join]
      rfl

/-- Dice of the same groups roll the same groups and leave the source in
the same state. -/
theorem roll_congr {a b : Die} (h : a.groups = b.groups) (source : σ) :
    (a.roll source).1.groups = (b.roll source).1.groups
      ∧ (a.roll source).2 = (b.roll source).2 := by
  -- both roll the one row of groups, and a row has one result
  have hroll := rollGroups_groups a source
  rw [h, rollGroups_groups b source] at hroll
  injection hroll with hgroups hsource
  exact ⟨hgroups.symm, hsource.symm⟩

end Die

end Source

-- ============================================================== the bounds

namespace Die

/-- The limits of the notation speak of the groups alone. -/
theorem WithinLimits.congr {a b : Die} (ha : a.WithinLimits)
    (h : a.groups = b.groups) : b.WithinLimits := by
  obtain ⟨hgroups, hcount⟩ := ha
  rw [h] at hgroups hcount
  exact ⟨hgroups, hcount⟩

/-- Within the limits, dice of the same groups have the same bounds. -/
theorem WithinLimits.bounds_congr {a b : Die} (ha : a.WithinLimits)
    (h : a.groups = b.groups) :
    a.lowest = b.lowest ∧ a.highest = b.highest := by
  obtain ⟨hlowa, hhigha⟩ := ha.boundsFit.toInt
  obtain ⟨hlowb, hhighb⟩ := (ha.congr h).boundsFit.toInt
  constructor
  · rw [← Int64.toInt_inj, hlowa, hlowb]
    unfold exactLowest
    rw [h]
  · rw [← Int64.toInt_inj, hhigha, hhighb]
    unfold exactHighest
    rw [h]

/-- Within the limits, dice of the same groups roll the same total. -/
theorem WithinLimits.total_congr {a b : Die} (ha : a.WithinLimits)
    (h : a.groups = b.groups) {σ : Type} [WordSource σ] (source : σ) :
    (a.roll source).1.total = (b.roll source).1.total := by
  rw [← Int64.toInt_inj, ha.roll_total, (ha.congr h).roll_total,
    Outcome.exactTotal_eq_sum, Outcome.exactTotal_eq_sum,
    (roll_congr h source).1]

-- ================================================== notation read again

/-- A die and what its notation is read as roll alike: the same faces
and the same total, formed without leaving the range, with the same
text, and with the same words of the source. Their bounds and their
largest number of sides are the same, too. -/
theorem roll_of_parse_toString {die reread : Die}
    (h : Die.parse die.toString = .ok reread) :
    (∀ (σ : Type) [WordSource σ] (source : σ),
      (die.roll source).1.faces = (reread.roll source).1.faces
        ∧ (die.roll source).1.SumsFit ∧ (reread.roll source).1.SumsFit
        ∧ (die.roll source).1.total = (reread.roll source).1.total
        ∧ (die.roll source).1.toString = (reread.roll source).1.toString
        ∧ (die.roll source).2 = (reread.roll source).2)
      ∧ die.lowest = reread.lowest ∧ die.highest = reread.highest
      ∧ die.largestSides = reread.largestSides := by
  have hlimits := Die.withinLimits_of_parse_toString h
  obtain ⟨nested, -, hgroups, hparse⟩ :=
    Die.parse_toString_of_withinLimits hlimits
  rw [h] at hparse
  cases hparse
  have hsame : die.groups = reread.groups := hgroups.symm
  obtain ⟨hlowest, hhighest⟩ := hlimits.bounds_congr hsame
  refine ⟨?_, hlowest, hhighest, largestSides_congr hsame⟩
  intro σ _ source
  obtain ⟨houtcome, hsource⟩ := roll_congr hsame source
  have htotal := hlimits.total_congr hsame source
  refine ⟨?_, (die.roll_shows source).sumsFit hlimits,
    (reread.roll_shows source).sumsFit (hlimits.congr hsame), htotal, ?_,
    hsource⟩
  · rw [Outcome.faces_eq_flatMap, Outcome.faces_eq_flatMap, houtcome]
  · unfold Outcome.toString
    rw [Outcome.written_congr houtcome htotal]

/-- Dice joined on the left are read again as dice joined on the
right. -/
theorem roll_of_left_nested :
    ∃ die reread : Die, Die.parse die.toString = .ok reread
      ∧ die ≠ reread
      ∧ ∀ (σ : Type) [WordSource σ] (source : σ),
        (die.roll source).1.faces = (reread.roll source).1.faces
          ∧ (die.roll source).2 = (reread.roll source).2 := by
  let six : Die := .group ⟨⟨1, by decide⟩, ⟨6, by decide⟩, 0⟩
  let four : Die := .group ⟨⟨2, by decide⟩, ⟨4, by decide⟩, -3⟩
  have hparse : Die.parse (Die.join (.join six four) six).toString
      = .ok (.join six (.join four six)) := by decide +kernel
  have halike := (roll_of_parse_toString hparse).1
  refine ⟨_, _, hparse, by decide, ?_⟩
  intro σ _ source
  obtain ⟨hfaces, -, -, -, -, hsource⟩ := halike σ source
  exact ⟨hfaces, hsource⟩

end Die

end DiceNotation
