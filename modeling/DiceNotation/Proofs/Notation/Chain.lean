/-
What is read behind a die. The grammar says it by recursion, from the
outside in: nothing, or an ampersand and a group with all that follows
that group, joined on the right of what was read (`ruleAfter`). Whoever
asks which dice that gives is better off with the list of the groups that
follow (`moreGroups`): what the recursion builds is their chain
(`ruleAfter_eq`).

# The loop

The cursor goes through the text once, gathers the groups in the order in
which they stand, and joins them only at the end, from the inside out. It
meets the limit as a size, between an ampersand and its group, where the
recursion finds no room left. That this is the recursion was needed
already to see that reading ends (`Cursor.gathers_ruleAfter`); here it is
said of the rule as it is called.
-/
import DiceNotation.Walk

namespace DiceNotation.Grammar

open Reader

-- ============================================================ the groups

/-- The groups behind a die, each after an ampersand, if there are not
more of them than there is room for. -/
def moreGroups : Nat → Reader (List Group)
  | room, text =>
      match letter '&' text with
      | none => some ([], text)
      | some ((), text) =>
          match room with
          | 0 => none
          | room + 1 =>
              match group text with
              | none => none
              | some (g, text) =>
                  match moreGroups room text with
                  | none => none
                  | some (more, text) => some (g :: more, text)

/-- The rule builds the chain of the groups that follow. -/
theorem ruleAfter_eq (room : Nat) (first : Die) (text : List Char) :
    ruleAfter room first text
      = (moreGroups room text).map fun (more, rest) =>
          (first.chain more, rest) := by
  induction room generalizing first text with
  | zero =>
      unfold ruleAfter moreGroups
      cases letter '&' text with
      | none => rfl
      | some found => rfl
  | succ room ih =>
      unfold ruleAfter moreGroups
      cases letter '&' text with
      | none => rfl
      | some found =>
          obtain ⟨⟨⟩, afterSep⟩ := found
          simp only
          cases group afterSep with
          | none => rfl
          | some found =>
              obtain ⟨g, afterGroup⟩ := found
              simp only [ih]
              cases moreGroups room afterGroup with
              | none => rfl
              | some found => rfl

/-- What is read behind a die is its chain with the groups that
follow. -/
theorem dieAfter_eq (first : Die) (text : List Char) :
    dieAfter first text
      = (moreGroups (maxGroups - 1) text).map fun (more, rest) =>
          (first.chain more, rest) :=
  ruleAfter_eq _ first text

-- ============================================================== the loop

/-- The loop implements the rule: behind any die and on any text it gives
the die that the rule gives and leaves the cursor at the same text, and
it fails where the rule does, with the cursor back where it was. A walk
that asks for it is left alone by a failure. -/
theorem dieAfter_eq_ruleAfter (first : Die) (text : List Char) :
    (Cursor.readDieAfter first).run ⟨text⟩
        = (match ruleAfter (maxGroups - 1) first text with
          | some (die, rest) => (some die, ⟨rest⟩)
          | none => (none, ⟨text⟩))
      ∧ ∀ marks, Walk.step ⟨⟨text⟩, marks⟩ (.dieAfter first)
        = match ruleAfter (maxGroups - 1) first text with
          | some (die, rest) => (.die die, ⟨⟨rest⟩, marks⟩)
          | none => (.missing, ⟨⟨text⟩, marks⟩) := by
  have hrun : (Cursor.readDieAfter first).run ⟨text⟩
      = Cursor.leave text (ruleAfter (maxGroups - 1) first text) :=
    Cursor.readDieAfter_follows first text
  constructor
  · rw [hrun]
    cases ruleAfter (maxGroups - 1) first text with
    | none => rfl
    | some found => rfl
  · intro marks
    have hoptional : (Cursor.readDieAfter first).optional.run ⟨text⟩
        = Cursor.leave text (ruleAfter (maxGroups - 1) first text) := hrun
    simp only [Walk.step, Walk.ask, Walk.act, hoptional]
    cases ruleAfter (maxGroups - 1) first text with
    | none => rfl
    | some found => rfl

end DiceNotation.Grammar
