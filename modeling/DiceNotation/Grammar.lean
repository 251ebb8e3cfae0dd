/-
The rules of dice notation, one reader each:

  roll list   a roll, then any number of semicolons with a roll behind
  roll        a die, which a repeat count and an x may precede
  die         a group, then any number of ampersands with a group behind
  group       a count, which may be left out, the letter d, the sides,
              and a signed bonus, which may be left out

A number past its bound makes the rule fail; a number that fits no word
is as good as absent. A rule that fails gives nothing, and the text that
it was given is still at hand; so a count that turns out to be no repeat
count is read again as a count of dice.

The rules say what can be read. How they are carried out, with a cursor
that moves and must be taken back, is said where the cursor is.
-/
import DiceNotation.Die
import DiceNotation.Reader

namespace DiceNotation.Grammar

open Reader

-- ============================================================== bounds

/-- The largest repeat count of a roll. -/
def maxRepeat : UInt32 := 1000

/-- The largest number of dice in a group. -/
def maxCount : UInt32 := 100000

/-- The largest number of groups in a die. -/
def maxGroups : Nat := 1000

-- =============================================================== group

/-- The count of a group: a number in its bounds, or one if there is no
number. -/
def count : Reader Positive :=
  unsigned.checked (Positive.atMost? maxCount) (some .one)

/-- The sides of a group: a number above zero. -/
def sides : Reader Positive := unsigned.checked Positive.ofWord? none

/-- The bonus of a group: a signed 32-bit number, or zero if there is no
number. -/
def bonus : Reader Int32 := signed.checked Word.signed32? (some 0)

/-- A group: count, the letter d, sides and bonus. -/
def group : Reader Group :=
  count.andThen fun count =>
    (letter 'd').andThen fun () =>
      sides.andThen fun sides =>
        bonus.andThen fun bonus => found ⟨count, sides, bonus⟩

theorem count_advances : Advances count :=
  unsigned_consumes.advances.checked

theorem sides_consumes : Consumes sides :=
  unsigned_consumes.checked

theorem bonus_advances : Advances bonus :=
  signed_consumes.advances.checked

theorem group_consumes : Consumes group :=
  count_advances.andThen_consumes fun _ =>
    (letter_consumes 'd').andThen fun _ =>
      sides_consumes.advances.andThen fun _ =>
        bonus_advances.andThen fun _ => found_advances _

-- ================================================================= die

/-- What follows a die: the die alone if no ampersand comes next; else the
group behind it, with what follows that group, joined on the right of
the die. Each ampersand takes up room, and without room there is nothing
that may follow one. -/
def ruleAfter : Nat → Die → Reader Die
  | room, first, text =>
      match letter '&' text with
      | none => some (first, text)
      | some ((), text) =>
          match room with
          | 0 => none
          | room + 1 =>
              match group text with
              | none => none
              | some (g, text) =>
                  match ruleAfter room (.group g) text with
                  | none => none
                  | some (others, text) => some (.join first others, text)

/-- The rest of a die behind a die already read, which takes up room
itself. -/
def dieAfter (first : Die) : Reader Die := ruleAfter (maxGroups - 1) first

/-- A die. -/
def die : Reader Die := group.andThen fun g => dieAfter (.group g)

theorem ruleAfter_advances (room : Nat) (first : Die) :
    Advances (ruleAfter room first) := by
  intro text v rest h
  induction room generalizing first text v rest with
  | zero =>
      unfold ruleAfter at h
      split at h
      · cases h
        exact List.suffix_refl _
      · cases h
  | succ room ih =>
      unfold ruleAfter at h
      split at h
      · cases h
        exact List.suffix_refl _
      · next hsep =>
          dsimp only at h
          split at h
          · cases h
          · next hgroup =>
              split at h
              · cases h
              · next hmore =>
                  cases h
                  exact ((ih _ hmore).trans (group_consumes hgroup).1).trans
                    (letter_consumes _ hsep).1

theorem dieAfter_advances (first : Die) : Advances (dieAfter first) :=
  ruleAfter_advances _ first

theorem die_consumes : Consumes die :=
  group_consumes.andThen fun _ => dieAfter_advances _

-- ================================================================ roll

/-- The repeat count of a roll: a number in its bounds before an x, or
one if no number and x come next. -/
def repeatCount : Reader Positive := fun text =>
  match unsigned text with
  | none => some (.one, text)
  | some (n, rest) =>
      match letter 'x' rest with
      | none => some (.one, text)
      | some ((), rest) => (Positive.atMost? maxRepeat n).map (·, rest)

/-- A roll: a die as many times as its repeat count says. -/
def roll : Reader (List Die) :=
  repeatCount.andThen fun times =>
    die.andThen fun d => found (List.replicate times.toNat d)

theorem repeatCount_advances : Advances repeatCount := by
  intro text v rest h
  unfold repeatCount at h
  split at h
  · cases h
    exact List.suffix_refl _
  · next hread =>
      split at h
      · cases h
        exact List.suffix_refl _
      · next hletter =>
          obtain ⟨n, -, heq⟩ := Option.map_eq_some_iff.1 h
          cases heq
          exact (letter_consumes _ hletter).1.trans
            (unsigned_consumes hread).1

theorem roll_consumes : Consumes roll :=
  repeatCount_advances.andThen_consumes fun _ =>
    die_consumes.andThen fun _ => found_advances _

-- =========================================================== roll list

/-- The rolls behind the first one, each after a semicolon. -/
def moreRolls (text : List Char) : Option (List Die × List Char) :=
  match _hsep : letter ';' text with
  | none => some ([], text)
  | some ((), afterSep) =>
      match _hroll : roll afterSep with
      | none => none
      | some (dice, afterRoll) =>
          match moreRolls afterRoll with
          | none => none
          | some (more, rest) => some (dice ++ more, rest)
termination_by text.length
decreasing_by
  have := (letter_consumes _ _hsep).2
  have := (roll_consumes _hroll).2
  omega

/-- A roll list: the dice of all its rolls, in order. -/
def rollList : Reader (List Die) :=
  roll.andThen fun dice =>
    Reader.andThen moreRolls fun more => found (dice ++ more)

theorem moreRolls_advances : Advances moreRolls := by
  intro text v rest h
  fun_induction moreRolls text generalizing v rest with
  | case1 text hsep =>
      cases h
      exact List.suffix_refl _
  | case2 text afterSep hsep hroll => cases h
  | case3 text afterSep hsep dice afterRoll hroll hmore ih => cases h
  | case4 text afterSep hsep dice afterRoll hroll more last hmore ih =>
      cases h
      exact ((ih hmore).trans (roll_consumes hroll).1).trans
        (letter_consumes _ hsep).1

theorem rollList_consumes : Consumes rollList :=
  roll_consumes.andThen fun _ =>
    moreRolls_advances.andThen fun _ => found_advances _

end DiceNotation.Grammar
