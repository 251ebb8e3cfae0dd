/-
What a die that was read looks like: it is a chain nested to the right,
and it keeps to the limits of the notation on the number of groups and
of dice in a group. Both are facts about the phrases of the grammar, and
hold of whatever text the die came from; all that is later said about
the dice of a text, their totals above all, rests on them alone.
-/
import DiceNotation.Proofs.Notation.Acceptance

namespace DiceNotation

namespace Die

-- ============================================================= nesting

/-- No join has a join on its left. -/
def RightNested : Die → Prop
  | .group _ => True
  | .join (.group _) right => right.RightNested
  | .join (.join _ _) _ => False

/-- A chain that starts with a group is nested to the right. -/
theorem rightNested_chain (g : Group) (more : List Group) :
    ((Die.group g).chain more).RightNested := by
  induction more generalizing g with
  | nil => trivial
  | cons next more ih => exact ih next

/-- A die nested to the right is the chain of its groups. -/
theorem RightNested.exists_chain {die : Die} (h : die.RightNested) :
    ∃ g more, die.groups = g :: more ∧ die = (Die.group g).chain more := by
  induction die with
  | group g => exact ⟨g, [], rfl, rfl⟩
  | join left right _ ihr =>
      cases left with
      | group g =>
          obtain ⟨next, more, hgroups, hchain⟩ := ihr h
          refine ⟨g, next :: more, by simp [hgroups], ?_⟩
          rw [chain, ← hchain]
      | join _ _ => exact h.elim

/-- The groups of a die nested to the right tell all of it. -/
theorem RightNested.eq_of_groups {a b : Die} (ha : a.RightNested)
    (hb : b.RightNested) (h : a.groups = b.groups) : a = b := by
  obtain ⟨g, more, hgroups, hchain⟩ := ha.exists_chain
  obtain ⟨g', more', hgroups', hchain'⟩ := hb.exists_chain
  rw [hgroups, hgroups'] at h
  injection h with hg hmore
  rw [hchain, hchain', hg, hmore]

-- ============================================================== limits

/-- The limits of the notation on a die. -/
structure WithinLimits (die : Die) : Prop where
  groups_le : die.groups.length ≤ Grammar.maxGroups
  count_le : ∀ g ∈ die.groups, g.count.val ≤ Grammar.maxCount

end Die

-- ========================================================== of phrases

/-- The count of a group keeps to its limit. -/
theorem GroupPhrase.count_le {tokens : List Token} {g : Group}
    (h : GroupPhrase tokens g) : g.count.val ≤ Grammar.maxCount := by
  obtain ⟨hcount, -⟩ := h
  rw [UInt32.le_iff_toNat_le, maxCount_toNat]
  generalize g.count = count at hcount
  cases hcount with
  | absent => decide
  | given bound => exact bound

/-- The groups of a chain keep to the limit of their counts, and the
chain is nested to the right. -/
theorem ChainPhrase.shape {tokens : List Token} {die : Die}
    (h : ChainPhrase tokens die) :
    die.RightNested
      ∧ ∀ g ∈ die.groups, g.count.val ≤ Grammar.maxCount := by
  induction h with
  | group only => simpa [Die.RightNested] using only.count_le
  | join head _ ih =>
      refine ⟨ih.1, ?_⟩
      intro g hg
      rw [Die.groups_join, Die.groups_group, List.singleton_append,
        List.mem_cons] at hg
      rcases hg with rfl | hg
      · exact head.count_le
      · exact ih.2 g hg

/-- A die of the grammar is nested to the right and keeps to the
limits. -/
theorem DiePhrase.shape {tokens : List Token} {die : Die}
    (h : DiePhrase tokens die) : die.RightNested ∧ die.WithinLimits :=
  ⟨h.chain.shape.1, h.bound, h.chain.shape.2⟩

/-- So does the die of a roll. -/
theorem RollPhrase.shape {tokens : List Token} {dice : List Die}
    (h : RollPhrase tokens dice) :
    ∀ die ∈ dice, die.RightNested ∧ die.WithinLimits := by
  intro die hdie
  obtain ⟨-, only⟩ := h
  rw [List.eq_of_mem_replicate hdie]
  exact only.shape

/-- So does each die of a roll list. -/
theorem RollListPhrase.shape {tokens : List Token} {dice : List Die}
    (h : RollListPhrase tokens dice) :
    ∀ die ∈ dice, die.RightNested ∧ die.WithinLimits := by
  induction h with
  | last only => exact only.shape
  | more head _ ih =>
      intro die hdie
      rcases List.mem_append.1 hdie with hdie | hdie
      · exact head.shape die hdie
      · exact ih die hdie

-- ============================================================ of texts

/-- A text that is read as one die means a die within the limits. -/
theorem Die.shape_of_parse {input : String} {die : Die}
    (h : Die.parse input = .ok die) :
    die.RightNested ∧ die.WithinLimits := by
  obtain ⟨tokens, -, hphrase⟩ := Die.parse_eq_ok_iff.1 h
  exact hphrase.shape

/-- A text that is read as rolls means dice within the limits. -/
theorem Rolls.shape_of_parse {input : String} {dice : List Die}
    (h : Rolls.parse input = .ok dice) :
    ∀ die ∈ dice, die.RightNested ∧ die.WithinLimits := by
  obtain ⟨tokens, -, hphrase⟩ := Rolls.parse_eq_ok_iff.1 h
  exact hphrase.shape

/-- A die that a text means, alone or as one of its rolls. -/
def Die.IsRead (die : Die) : Prop :=
  (∃ input, Die.parse input = .ok die)
    ∨ ∃ input dice, Rolls.parse input = .ok dice ∧ die ∈ dice

/-- Either way it is nested to the right and keeps to the limits. -/
theorem Die.IsRead.shape {die : Die} (h : die.IsRead) :
    die.RightNested ∧ die.WithinLimits := by
  obtain ⟨input, hparse⟩ | ⟨input, dice, hparse, hmem⟩ := h
  · exact Die.shape_of_parse hparse
  · exact Rolls.shape_of_parse hparse die hmem

end DiceNotation
