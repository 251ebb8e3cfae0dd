/-
Dice, outcomes and labeled lines written as JSON and read again. What is
read is what was written, as long as the reader may open all brackets on
the way (`Die.joinDepth`): each level of joins takes two, the leaf at the
end two more, a third for the faces of an outcome, and a labeled line
two around its dice. Written values are nested as deeply as may be, so
past these depths they are written all the same and not read again.

Both directions come out of one induction on the die, in which the
brackets left to open vary.
-/
import DiceNotation.Json.Dice
import DiceNotation.Proofs.Json.Text
import DiceNotation.Proofs.Word

namespace DiceNotation

open Json

namespace Json

-- ============================================================= records

/-- A variant of plain name is read back if its content is. -/
theorem readsBack_variant {name : List Char} (hname : Plain name)
    {content : Value} (h : ReadsBack content) :
    ReadsBack (.object [(name, content)]) := by
  apply readsBack_object
  intro member hmember
  rw [List.mem_singleton.1 hmember]
  exact ⟨hname, h⟩

/-- A record of plain names is read back if its fields are. -/
theorem readsBack_record (names : List (List Char))
    (hnames : ∀ name ∈ names, Plain name) (values : List Value)
    (h : ∀ v ∈ values, ReadsBack v) :
    ReadsBack (.object (names.zip values)) := by
  apply readsBack_object
  intro member hmember
  obtain ⟨hname, hvalue⟩ := List.of_mem_zip hmember
  exact ⟨hnames _ hname, h _ hvalue⟩

/-- An array of items that are all written in a way that is read back. -/
theorem readsBack_map {α : Type} {write : α → Value}
    (h : ∀ a, ReadsBack (write a)) (list : List α) :
    ReadsBack (.array (list.map write)) := by
  apply readsBack_array
  intro item hitem
  obtain ⟨a, -, rfl⟩ := List.mem_map.1 hitem
  exact h a

-- ============================================================= scalars

theorem toInt?_ofInt (n : Int) : (Value.ofInt n).toInt? = some n :=
  integer?_ofInt n

theorem toWord?_ofInt (n : UInt32) :
    (Value.ofInt n.toNat).toWord? = some n := by
  unfold Value.toWord?
  rw [toInt?_ofInt, Option.bind_some, Word.unsigned32?_toNat]

theorem toPositive?_ofInt (n : Positive) :
    (Value.ofInt n.toNat).toPositive? = some n := by
  unfold Value.toPositive? Positive.toNat
  rw [toWord?_ofInt, Option.bind_some]
  exact Positive.ofWord?_eq_some_iff.2 rfl

theorem toBonus?_ofInt (bonus : Int32) :
    (Value.ofInt bonus.toInt).toBonus? = some bonus := by
  unfold Value.toBonus?
  rw [toInt?_ofInt, Option.bind_some]
  exact Word.signed32?_eq_some_iff.2 rfl

theorem toTotal?_ofInt (total : Int64) :
    (Value.ofInt total.toInt).toTotal? = some total := by
  unfold Value.toTotal?
  rw [toInt?_ofInt, Option.bind_some, Word.signed64?_toInt]

theorem toLabel?_ofText (text : String) :
    (Value.ofText text.toList).toLabel? = some (some text) := by
  show (unescape? (text.toList.flatMap escape)).map _ = _
  rw [unescape?_flatMap_escape, Option.map_some, String.ofList_toList]

/-- Two parts that are there under some condition each make a whole if
both conditions hold. -/
theorem both_of_guards {α β γ : Type} (p q : Prop) [Decidable p]
    [Decidable q] (make : α → β → γ) (a : α) (b : β) :
    ((if p then some a else none) >>= fun x =>
        (if q then some b else none) >>= fun y => pure (make x y))
      = if p ∧ q then some (make a b) else none := by
  by_cases hp : p
  · by_cases hq : q
    · simp [hp, hq]
    · simp [hq]
  · simp [hp]

/-- Items that each are what they were written for are so together. -/
theorem mapM_map {α : Type} {write : α → Value} {read : Value → Option α}
    {list : List α} (h : ∀ a ∈ list, read (write a) = some a) :
    (list.map write).mapM read = some list := by
  induction list with
  | nil => rfl
  | cons a list ih =>
      obtain ⟨ha, hothers⟩ := List.forall_mem_cons.1 h
      rw [List.map_cons, List.mapM_cons, ha, ih hothers]
      rfl

end Json

-- ================================================================ dice

namespace Die

/-- How many joins are nested in a die at its deepest. -/
def joinDepth : Die → Nat
  | .group _ => 0
  | .join left right => max left.joinDepth right.joinDepth + 1

/-- A chain has a join for each group behind the first. -/
theorem joinDepth_chain (g : Group) (more : List Group) :
    ((group g).chain more).joinDepth = more.length := by
  induction more generalizing g with
  | nil => rfl
  | cons next more ih =>
      rw [chain, joinDepth, ih, List.length_cons]
      show max 0 more.length + 1 = more.length + 1
      rw [Nat.zero_max]

theorem readsBack_toJson (die : Die) : ReadsBack die.toJson := by
  induction die with
  | group g =>
      apply readsBack_variant (by decide)
      apply readsBack_record [Key.count, Key.sides, Key.bonus] (by decide)
        [.ofInt g.count.toNat, .ofInt g.sides.toNat, .ofInt g.bonus.toInt]
      simp [readsBack_ofInt]
  | join left right ihl ihr =>
      apply readsBack_variant (by decide)
      apply readsBack_record [Key.left, Key.right] (by decide)
        [left.toJson, right.toJson]
      simp [ihl, ihr]

/-- A group is read with two brackets left to open. -/
theorem ofJson?_group (g : Group) (depth : Nat) :
    ofJson? (depth + 2) (group g).toJson = some (group g) := by
  have hread : ofJson? (depth + 2) (group g).toJson
      = (do
        let count ← (Value.ofInt g.count.toNat).toPositive?
        let sides ← (Value.ofInt g.sides.toNat).toPositive?
        let bonus ← (Value.ofInt g.bonus.toInt).toBonus?
        return Group.mk count sides bonus).map group := rfl
  rw [hread, toPositive?_ofInt, toPositive?_ofInt, toBonus?_ofInt]
  rfl

/-- The sides of a join are read with two brackets less. -/
theorem ofJson?_join (left right : Die) (depth : Nat) :
    ofJson? (depth + 2) (join left right).toJson
      = (do
        let l ← ofJson? depth left.toJson
        let r ← ofJson? depth right.toJson
        return join l r) := rfl

/-- A die is what it was written for, if there are brackets enough. -/
theorem ofJson?_toJson (die : Die) (depth : Nat) :
    ofJson? depth die.toJson
      = if 2 * die.joinDepth + 2 ≤ depth then some die else none := by
  induction die generalizing depth with
  | group g =>
      match depth with
      | 0 => rfl
      | 1 => rfl
      | depth + 2 =>
          have hdepth : 2 * (group g).joinDepth + 2 ≤ depth + 2 :=
            Nat.le_add_left 2 depth
          rw [ofJson?_group, if_pos hdepth]
  | join left right ihl ihr =>
      unfold joinDepth
      match depth with
      | 0 => rfl
      | 1 =>
          rw [if_neg (by omega)]
          rfl
      | depth + 2 =>
          rw [ofJson?_join, ihl, ihr]
          refine (both_of_guards (2 * left.joinDepth + 2 ≤ depth)
            (2 * right.joinDepth + 2 ≤ depth) join left right).trans
            (if_congr ?_ rfl rfl)
          omega

/-- The dice of a list are what they were written for, if there are
brackets enough for each. -/
theorem mapM_ofJson?_toJson (dice : List Die) (depth : Nat) :
    (dice.map toJson).mapM (ofJson? depth)
      = if ∀ die ∈ dice, 2 * die.joinDepth + 2 ≤ depth then some dice
        else none := by
  induction dice with
  | nil => rfl
  | cons die dice ih =>
      rw [List.map_cons, List.mapM_cons, ih, ofJson?_toJson]
      refine (both_of_guards (2 * die.joinDepth + 2 ≤ depth)
        (∀ die ∈ dice, 2 * die.joinDepth + 2 ≤ depth) List.cons die
        dice).trans (if_congr ?_ rfl rfl)
      rw [List.forall_mem_cons]

end Die

-- ============================================================ outcomes

namespace Outcome

/-- How many joins are nested in an outcome at its deepest. -/
def joinDepth : Outcome → Nat
  | .group _ _ _ => 0
  | .join left right _ => max left.joinDepth right.joinDepth + 1

theorem readsBack_toJson (outcome : Outcome) :
    ReadsBack outcome.toJson := by
  induction outcome with
  | group faces bonus total =>
      have hfaces : ReadsBack
          (.array (faces.map fun face => .ofInt face.toNat)) :=
        readsBack_map (fun face => readsBack_ofInt face.toNat) faces
      apply readsBack_variant (by decide)
      apply readsBack_record [Key.rolls, Key.bonus, Key.total] (by decide)
        [.array (faces.map fun face => .ofInt face.toNat),
          .ofInt bonus.toInt, .ofInt total.toInt]
      simp [hfaces, readsBack_ofInt]
  | join left right total ihl ihr =>
      apply readsBack_variant (by decide)
      apply readsBack_record [Key.left, Key.right, Key.total] (by decide)
        [left.toJson, right.toJson, .ofInt total.toInt]
      simp [ihl, ihr, readsBack_ofInt]

/-- A group is read with three brackets left to open. -/
theorem ofJson?_group (faces : List UInt32) (bonus : Int32)
    (total : Int64) (depth : Nat) :
    ofJson? (depth + 3) (group faces bonus total).toJson
      = some (group faces bonus total) := by
  have hread : ofJson? (depth + 3) (group faces bonus total).toJson
      = (do
        let faces ← (faces.map fun face => Value.ofInt face.toNat).mapM
          Value.toWord?
        let bonus ← (Value.ofInt bonus.toInt).toBonus?
        let total ← (Value.ofInt total.toInt).toTotal?
        return group faces bonus total) := rfl
  rw [hread, mapM_map fun face _ => toWord?_ofInt face, toBonus?_ofInt,
    toTotal?_ofInt]
  rfl

/-- The sides of a join are read with two brackets less. -/
theorem ofJson?_join (left right : Outcome) (total : Int64)
    (depth : Nat) :
    ofJson? (depth + 2) (join left right total).toJson
      = (do
        let l ← ofJson? depth left.toJson
        let r ← ofJson? depth right.toJson
        return join l r total) := by
  have hread : ofJson? (depth + 2) (join left right total).toJson
      = (do
        let l ← ofJson? depth left.toJson
        let r ← ofJson? depth right.toJson
        let total ← (Value.ofInt total.toInt).toTotal?
        return join l r total) := rfl
  rw [hread, toTotal?_ofInt]
  rfl

/-- An outcome is what it was written for, if there are brackets
enough. -/
theorem ofJson?_toJson (outcome : Outcome) (depth : Nat) :
    ofJson? depth outcome.toJson
      = if 2 * outcome.joinDepth + 3 ≤ depth then some outcome
        else none := by
  induction outcome generalizing depth with
  | group faces bonus total =>
      match depth with
      | 0 => rfl
      | 1 => rfl
      | 2 => rfl
      | depth + 3 =>
          have hdepth : 2 * (group faces bonus total).joinDepth + 3
              ≤ depth + 3 := Nat.le_add_left 3 depth
          rw [ofJson?_group, if_pos hdepth]
  | join left right total ihl ihr =>
      unfold joinDepth
      match depth with
      | 0 => rfl
      | 1 =>
          rw [if_neg (by omega)]
          rfl
      | depth + 2 =>
          rw [ofJson?_join, ihl, ihr]
          refine (both_of_guards (2 * left.joinDepth + 3 ≤ depth)
            (2 * right.joinDepth + 3 ≤ depth)
            (fun l r => join l r total) left right).trans
            (if_congr ?_ rfl rfl)
          omega

end Outcome

-- ======================================================= labeled lines

namespace LabeledLine

theorem readsBack_toJson (labeled : LabeledLine) :
    ReadsBack labeled.toJson := by
  obtain ⟨label, dice⟩ := labeled
  have hdice : ReadsBack (.array (dice.map Die.toJson)) :=
    readsBack_map Die.readsBack_toJson dice
  cases label with
  | none =>
      apply readsBack_record [Key.name, Key.rolls] (by decide)
        [.null, .array (dice.map Die.toJson)]
      simp [hdice, readsBack_null]
  | some text =>
      apply readsBack_record [Key.name, Key.rolls] (by decide)
        [.ofText text.toList, .array (dice.map Die.toJson)]
      simp [hdice, readsBack_ofText]

/-- A labeled line is what it was written for, if there are brackets
enough for each of its dice. -/
theorem ofJson?_toJson (labeled : LabeledLine) (depth : Nat) :
    ofJson? (depth + 2) labeled.toJson
      = if ∀ die ∈ labeled.dice, 2 * die.joinDepth + 2 ≤ depth then
          some labeled
        else none := by
  obtain ⟨label, dice⟩ := labeled
  have hread : ofJson? (depth + 2) (LabeledLine.mk label dice).toJson
      = (do
        let dice ← (dice.map Die.toJson).mapM (Die.ofJson? depth)
        return ⟨label, dice⟩) := by
    cases label with
    | none => rfl
    | some text =>
        have hlabel : ofJson? (depth + 2)
              (LabeledLine.mk (some text) dice).toJson
            = (do
              let label ← (Value.ofText text.toList).toLabel?
              let dice ← (dice.map Die.toJson).mapM (Die.ofJson? depth)
              return ⟨label, dice⟩) := rfl
        rw [hlabel, toLabel?_ofText]
        rfl
  rw [hread, Die.mapM_ofJson?_toJson]
  by_cases h : ∀ die ∈ dice, 2 * die.joinDepth + 2 ≤ depth
  · rw [if_pos h, if_pos h]
    rfl
  · rw [if_neg h, if_neg h]
    rfl

end LabeledLine

-- ============================================================= the law

/-- The text of a die is read as the die up to a depth of 62 joins, and
is rejected past it. -/
theorem Die.readJson?_json (die : Die) :
    Die.readJson? die.json
      = if die.joinDepth ≤ 62 then some die else none := by
  unfold Die.readJson? Die.json maxDepth
  rw [die.readsBack_toJson.bind_ofText?, Die.ofJson?_toJson]
  refine if_congr ?_ rfl rfl
  omega

/-- Written and read again, a die and an outcome come back as they were
up to a depth of 62 joins, and a labeled line if no die of it is deeper
than 61: whatever their numbers, totals and labels. Past these depths
nothing comes back. -/
theorem json_round_trip :
    (∀ die : Die, Die.readJson? die.json
      = if die.joinDepth ≤ 62 then some die else none)
    ∧ (∀ outcome : Outcome, Outcome.readJson? outcome.json
      = if outcome.joinDepth ≤ 62 then some outcome else none)
    ∧ (∀ labeled : LabeledLine, LabeledLine.readJson? labeled.json
      = if ∀ die ∈ labeled.dice, die.joinDepth ≤ 61 then some labeled
        else none) := by
  refine ⟨Die.readJson?_json, ?_, ?_⟩
  · intro outcome
    unfold Outcome.readJson? Outcome.json maxDepth
    rw [outcome.readsBack_toJson.bind_ofText?, Outcome.ofJson?_toJson]
    refine if_congr ?_ rfl rfl
    omega
  · intro labeled
    unfold LabeledLine.readJson? LabeledLine.json maxDepth
    rw [labeled.readsBack_toJson.bind_ofText?,
      LabeledLine.ofJson?_toJson]
    refine if_congr (forall₂_congr fun die _ => ?_) rfl rfl
    omega

/-- A chain of 64 groups is nested too deeply to be read again. -/
theorem readJson_of_64_groups :
    Die.readJson? ((Die.group ⟨.one, .one, 0⟩).chain
      (List.replicate 63 ⟨.one, .one, 0⟩)).json = none := by
  rw [Die.readJson?_json, Die.joinDepth_chain, List.length_replicate,
    if_neg (by decide)]

end DiceNotation
