/-
The rules of the notation, carried out with a cursor. A rule reads part
after part and may fail behind any of them, in the middle of the text
that it has used up by then; whoever calls it relies on finding the
cursor where it was. So each rule is attempted as a whole, and each is
shown to follow the rule of the notation of the same name, in what it
finds and in where it leaves the cursor.

# Loops

Two rules have a loop, which may fail with any number of groups or rolls
behind it. The one for groups fails on their number as well; it keeps
those read so far in a row, and only when no more follow are they
joined, from the last one on. The rule nests where the loop has a row,
so what the loop holds is compared with the rule by what joining it will
give (`gathers_ruleAfter`).
-/
import DiceNotation.Cursor
import DiceNotation.Grammar

namespace DiceNotation.Cursor

open Grammar Reader

-- =============================================================== group

/-- The count of a group. -/
def readCount : Rule Positive :=
  readChecked readUnsigned (Positive.atMost? maxCount) (some .one)

/-- The sides of a group. -/
def readSides : Rule Positive :=
  readChecked readUnsigned Positive.ofWord? none

/-- The bonus of a group. -/
def readBonus : Rule Int32 :=
  readChecked readSigned Word.signed32? (some 0)

/-- A group. -/
def readGroup : Rule Group := attempt do
  let count ← readCount
  expect ['d']
  let sides ← readSides
  let bonus ← readBonus
  return ⟨count, sides, bonus⟩

theorem readGroup_follows : Follows readGroup group :=
  .attempt <|
    (readUnsigned_follows.checked _ _).bind fun _ =>
      (expect_follows _).tracks.bind fun _ =>
        (readUnsigned_follows.checked _ _).bind fun _ =>
          (readSigned_follows.checked _ _).bind fun _ => .pure _

-- ================================================================= die

/-- Reads on as long as ampersands come next. The group behind each of
them is put behind the dice read so far, of which there may be no more
than the notation allows. It unfolds on closed texts, so that reading
them can be shown by computing. -/
@[semireducible] def gather (dice : Array Die) (cursor : Cursor) :
    Option (Array Die) × Cursor :=
  match _hsep : (consumeLiteral ['&']).run cursor with
  | (false, after) => (some dice, after)
  | (true, afterSep) =>
      if dice.size = maxGroups then (none, afterSep)
      else
        match _hgroup : readGroup.run afterSep with
        | (none, after) => (none, after)
        | (some g, afterGroup) => gather (dice.push (.group g)) afterGroup
termination_by cursor.rest.length
decreasing_by
  have := (Reader.letter_consumes '&' (literal_of_consumeLiteral _hsep)).2
  have := (group_consumes (readGroup_follows.read_of_found _hgroup)).2
  omega

/-- Dice joined from the last one on: each is joined, on the left, with
what those behind it were joined to. -/
def joinFromRight (dice : List Die) : Option Die :=
  match dice.reverse with
  | [] => none
  | last :: others =>
      some (others.foldl (fun right left => .join left right) last)

/-- The rest of a die behind a die already read: all groups that follow,
joined from the last one on. -/
def readDieAfter (first : Die) : Rule Die := attempt do
  let dice ← ⟨gather #[first]⟩
  .ofOption (joinFromRight dice.toList)

/-- A die. -/
def readDie : Rule Die := attempt do
  let g ← readGroup
  readDieAfter (.group g)

/-- Dice in front of a last one are joined to it one after the other. -/
theorem joinFromRight_concat (dice : List Die) (last : Die) :
    joinFromRight (dice ++ [last]) = some (dice.foldr .join last) := by
  unfold joinFromRight
  rw [List.reverse_append, List.reverse_singleton, List.singleton_append]
  simp only [List.foldl_reverse]

/-- Where no ampersand comes next the loop ends. -/
theorem gather_of_none {text : List Char}
    (h : Reader.letter '&' text = none) (dice : Array Die) :
    gather dice ⟨text⟩ = (some dice, ⟨text⟩) := by
  have hsep := consumeLiteral_of_none h
  rw [gather]
  split
  · next heq =>
      rw [hsep] at heq
      cases heq
      rfl
  · next heq =>
      rw [hsep] at heq
      cases heq

/-- Behind an ampersand the loop fails if it is full, and else goes on
with the group that it finds. -/
theorem gather_of_some {text rest : List Char}
    (h : Reader.letter '&' text = some ((), rest)) (dice : Array Die) :
    gather dice ⟨text⟩
      = if dice.size = maxGroups then (none, ⟨rest⟩)
        else
          match readGroup.run ⟨rest⟩ with
          | (none, after) => (none, after)
          | (some g, after) => gather (dice.push (.group g)) after := by
  have hsep := consumeLiteral_of_some h
  rw [gather]
  split
  · next heq =>
      rw [hsep] at heq
      cases heq
  · next heq =>
      rw [hsep] at heq
      cases heq
      split
      · rfl
      · split
        · next heq => rw [heq]
        · next heq => rw [heq]

/-- What the loop comes to from dice and a last one behind them, against
what the rule finds behind the last one alone: they stop at the same
place, and all that the loop holds is joined to the dice in front of what
the rule has found; or both find nothing. -/
inductive Gathers (dice : Array Die) :
    Option (Die × List Char) → Option (Array Die) × Cursor → Prop
  | found {d : Die} {rest : List Char} {all : Array Die}
      (joined : joinFromRight all.toList
        = some (dice.toList.foldr .join d)) :
      Gathers dice (some (d, rest)) (some all, ⟨rest⟩)
  | missed (after : Cursor) : Gathers dice none (none, after)

/-- Where the loop ends, the rule has found the last die alone. -/
theorem Gathers.ended (dice : Array Die) (last : Die) (text : List Char) :
    Gathers dice (some (last, text)) (some (dice.push last), ⟨text⟩) := by
  refine .found ?_
  rw [Array.toList_push]
  exact joinFromRight_concat _ _

/-- The loop goes on with a group behind the last die, and the rule joins
what it finds behind that group to the last die. -/
theorem Gathers.more {dice : Array Die} {last : Die}
    {found : Option (Die × List Char)} {ran : Option (Array Die) × Cursor}
    (h : Gathers (dice.push last) found ran) :
    Gathers dice
      (found.map fun (others, text) => (.join last others, text)) ran := by
  cases h with
  | found joined =>
      refine .found ?_
      rw [joined, Array.toList_push, List.foldr_append]
      rfl
  | missed after => exact .missed after

/-- The loop finds what the rule finds, as long as what it holds and the
room that the rule has left are the largest number of groups. -/
theorem gathers_ruleAfter (dice : Array Die) {room : Nat} (last : Die)
    (hroom : (dice.push last).size + room = maxGroups)
    (text : List Char) :
    Gathers dice (ruleAfter room last text)
      (gather (dice.push last) ⟨text⟩) := by
  induction room generalizing dice last text with
  | zero =>
      unfold ruleAfter
      cases hsep : Reader.letter '&' text with
      | none =>
          rw [gather_of_none hsep]
          exact .ended dice last text
      | some result =>
          have hfull : (dice.push last).size = maxGroups := hroom
          rw [gather_of_some hsep, if_pos hfull]
          exact .missed _
  | succ room ih =>
      have hnotFull : (dice.push last).size ≠ maxGroups := by omega
      unfold ruleAfter
      cases hsep : Reader.letter '&' text with
      | none =>
          rw [gather_of_none hsep]
          exact .ended dice last text
      | some result =>
          rw [gather_of_some hsep, if_neg hnotFull, readGroup_follows]
          simp only
          cases group result.2 with
          | none => exact .missed _
          | some result =>
              have hpush : ((dice.push last).push (.group result.1)).size
                  + room = maxGroups := by
                rw [Array.size_push]
                omega
              have hmore := (ih _ (.group result.1) hpush result.2).more
              simp only [leave]
              cases hrule : ruleAfter room (.group result.1) result.2 with
              | none =>
                  rw [hrule] at hmore
                  exact hmore
              | some found =>
                  rw [hrule] at hmore
                  exact hmore

/-- What the loop has gathered is joined, if it has not failed. -/
theorem run_gathered (dice : Array Die) (cursor : Cursor) :
    ((⟨gather dice⟩ : Rule (Array Die)) >>= fun all =>
        Rule.ofOption (joinFromRight all.toList)).run cursor
      = match gather dice cursor with
        | (some all, after) => (joinFromRight all.toList, after)
        | (none, after) => (none, after) := by
  have hrun : (Rule.mk (gather dice)).run cursor = gather dice cursor := rfl
  rw [run_bind, hrun]
  cases gather dice cursor with
  | mk found after =>
      cases found with
      | none => rfl
      | some all => rfl

theorem readDieAfter_follows (first : Die) :
    Follows (readDieAfter first) (dieAfter first) := by
  have hgathers : ∀ text, Gathers #[] (dieAfter first text)
      (gather #[first] ⟨text⟩) :=
    gathers_ruleAfter #[] first rfl
  refine .attempt ⟨?_, ?_⟩
  · intro text d rest h
    have hran := hgathers text
    rw [h] at hran
    rw [run_gathered]
    generalize gather #[first] ⟨text⟩ = ran at hran
    cases hran with
    | found joined => exact congrArg (·, (⟨rest⟩ : Cursor)) joined
  · intro text h
    have hran := hgathers text
    rw [h] at hran
    rw [run_gathered]
    generalize gather #[first] ⟨text⟩ = ran at hran
    cases hran with
    | missed after => rfl

-- the loop fails behind the ampersand, and the rule gives it back
example :
    gather #[.group ⟨.one, .one, 0⟩] ⟨" & 3d".toList⟩
        = (none, ⟨" 3d".toList⟩)
      ∧ (readDieAfter (.group ⟨.one, .one, 0⟩)).run ⟨" & 3d".toList⟩
        = (none, ⟨" & 3d".toList⟩) := by
  decide +kernel

theorem readDie_follows : Follows readDie die :=
  .attempt <| readGroup_follows.tracks.bind fun _ =>
    (readDieAfter_follows _).tracks

-- ================================================================ roll

/-- The repeat count of a roll, or one, with the cursor back at the start,
if no number and x come next. -/
def readRepeatCount : Rule Positive := attempt do
  let mark ← checkpoint
  if let some count ← readUnsigned.optional then
    if ← consumeLiteral ['x'] then
      return ← .ofOption (Positive.atMost? maxRepeat count)
  restore mark
  return .one

/-- A roll: a die as many times as its repeat count says. -/
def readRoll : Rule (List Die) := attempt do
  let times ← readRepeatCount
  let die ← readDie
  return List.replicate times.toNat die

/-- The attempt at a repeat count fails only behind an x, at a count out
of its bounds. -/
theorem readRepeatCount_follows : Follows readRepeatCount repeatCount := by
  intro text
  have hmark : checkpoint.run ⟨text⟩ = (⟨text⟩, ⟨text⟩) := rfl
  have hnumber : readUnsigned.optional.run ⟨text⟩
      = leave text (unsigned text) := readUnsigned_follows text
  unfold readRepeatCount repeatCount
  rw [run_attempt, run_lift_bind, hmark, run_lift_bind, hnumber]
  cases unsigned text with
  | none => rfl
  | some found =>
      obtain ⟨n, rest⟩ := found
      simp only [leave]
      rw [run_lift_bind]
      cases hletter : letter 'x' rest with
      | none =>
          rw [consumeLiteral_of_none hletter]
          rfl
      | some behind =>
          rw [consumeLiteral_of_some hletter]
          simp only
          cases hcount : Positive.atMost? maxRepeat n with
          | none => rfl
          | some times => rfl

theorem readRoll_follows : Follows readRoll roll :=
  .attempt <| readRepeatCount_follows.tracks.bind fun _ =>
    readDie_follows.tracks.bind fun _ => .pure _

-- =========================================================== roll list

/-- Reads on as long as semicolons come next, and puts the dice of the
roll behind each of them behind the dice read so far. It unfolds on
closed texts, like the loop for groups. -/
@[semireducible] def gatherRolls (dice : Array Die) (cursor : Cursor) :
    Option (Array Die) × Cursor :=
  match _hsep : (consumeLiteral [';']).run cursor with
  | (false, after) => (some dice, after)
  | (true, afterSep) =>
      match _hroll : readRoll.run afterSep with
      | (none, after) => (none, after)
      | (some more, afterRoll) =>
          gatherRolls (dice ++ more.toArray) afterRoll
termination_by cursor.rest.length
decreasing_by
  have := (Reader.letter_consumes ';' (literal_of_consumeLiteral _hsep)).2
  have := (roll_consumes (readRoll_follows.read_of_found _hroll)).2
  omega

/-- A roll list: the dice of all its rolls, in order. -/
def readRollList : Rule (List Die) := attempt do
  let dice ← readRoll
  let all ← ⟨gatherRolls dice.toArray⟩
  return all.toList

theorem gatherRolls_of_none {text : List Char}
    (h : letter ';' text = none) (dice : Array Die) :
    gatherRolls dice ⟨text⟩ = (some dice, ⟨text⟩) := by
  have hsep := consumeLiteral_of_none h
  rw [gatherRolls]
  split
  · next heq =>
      rw [hsep] at heq
      cases heq
      rfl
  · next heq =>
      rw [hsep] at heq
      cases heq

theorem gatherRolls_of_some {text rest : List Char}
    (h : letter ';' text = some ((), rest)) (dice : Array Die) :
    gatherRolls dice ⟨text⟩
      = match readRoll.run ⟨rest⟩ with
        | (none, after) => (none, after)
        | (some more, after) =>
            gatherRolls (dice ++ more.toArray) after := by
  have hsep := consumeLiteral_of_some h
  rw [gatherRolls]
  split
  · next heq =>
      rw [hsep] at heq
      cases heq
  · next heq =>
      rw [hsep] at heq
      cases heq
      split
      · next heq => rw [heq]
      · next heq => rw [heq]

/-- The loop puts the dice of the rolls that follow behind those it
holds. -/
theorem gatherRolls_of_found {dice : Array Die} {more : List Die}
    {text rest : List Char} (h : moreRolls text = some (more, rest)) :
    gatherRolls dice ⟨text⟩ = (some (dice ++ more.toArray), ⟨rest⟩) := by
  fun_induction moreRolls text generalizing dice more rest with
  | case1 text hsep =>
      cases h
      rw [gatherRolls_of_none hsep]
      simp
  | case2 text afterSep hsep hroll => cases h
  | case3 text afterSep hsep first afterRoll hroll hmore ih => cases h
  | case4 text afterSep hsep first afterRoll hroll more last hmore ih =>
      cases h
      rw [gatherRolls_of_some hsep, readRoll_follows, hroll]
      simp only [leave]
      rw [ih hmore]
      simp

/-- The loop fails where the rolls that follow are none. -/
theorem gatherRolls_of_missed {dice : Array Die} {text : List Char}
    (h : moreRolls text = none) : (gatherRolls dice ⟨text⟩).1 = none := by
  fun_induction moreRolls text generalizing dice with
  | case1 text hsep => cases h
  | case2 text afterSep hsep hroll =>
      rw [gatherRolls_of_some hsep, readRoll_follows, hroll]
      rfl
  | case3 text afterSep hsep first afterRoll hroll hmore ih =>
      rw [gatherRolls_of_some hsep, readRoll_follows, hroll]
      exact ih hmore
  | case4 text afterSep hsep first afterRoll hroll more last hmore ih =>
      cases h

/-- The loop, taken from the dice of a first roll on, finds them with
those of the rolls that follow. -/
theorem gatherRolls_tracks (dice : List Die) :
    Tracks (do return (← (⟨gatherRolls dice.toArray⟩ : Rule _)).toList)
      (Reader.andThen moreRolls fun more => found (dice ++ more)) where
  found {text all rest} h := by
    obtain ⟨more, middle, hmore, hall⟩ := Reader.andThen_eq_some_iff.1 h
    cases hall
    have hrun : (Rule.mk (gatherRolls dice.toArray)).run ⟨text⟩
        = (some (dice.toArray ++ more.toArray), ⟨rest⟩) :=
      gatherRolls_of_found hmore
    rw [run_bind, hrun]
    simp only [List.append_toArray]
    rfl
  missed {text} h := by
    have hmore : moreRolls text = none := by
      cases hmore : moreRolls text with
      | none => rfl
      | some result =>
          unfold Reader.andThen at h
          rw [hmore] at h
          cases h
    have hmissed : ((Rule.mk (gatherRolls dice.toArray)).run ⟨text⟩).1
        = none := gatherRolls_of_missed hmore
    exact run_bind_of_missed hmissed _

theorem readRollList_follows : Follows readRollList rollList :=
  .attempt <| readRoll_follows.tracks.bind gatherRolls_tracks

end DiceNotation.Cursor
