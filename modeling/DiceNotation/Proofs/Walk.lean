/-
What a walk can do to its text. There are three kinds of steps, and that
is all that later proofs need of them (`step_moves`): a mark notes the
text and leaves it, a step back puts a noted text in its place, and
every other step goes forward to an end of the text it starts from.

# Finding nothing

A walk takes nothing back by itself, so a step that found nothing has
left the cursor where it was only because what it did with the cursor
has. That is what following a reader says of a failure, and each rule
owes it to the places that it goes back to itself (`Cursor.Follows`,
`step_of_miss`).

# What a whole walk keeps

Texts get onto a walk in two ways only, from the front of the walk's own
text and from a mark, and a mark is a text the walk once had. So if all
marks are ends of the text the walk began with, every step leaves them
so (`Inside.step`), and the text left is such an end too, however often
the walk has gone back.

Marks are never taken away or changed (`marks_after`). The number that a
mark was given therefore stands for the same text ever after, and going
back to it does not depend on what was done in between.
-/
import DiceNotation.Walk

namespace DiceNotation.Walk

-- ============================================================= answers

/-- Whether an answer says that what was looked for is not there. -/
def Answer.isMiss : Answer → Bool
  | .missing => true
  | .truth holds => !holds
  | _ => false

/-- Whether a step reads a rule of the notation that has at least one
character. -/
def Step.isSolid : Step → Bool
  | .group | .die | .roll | .rollList => true
  | _ => false

-- ============================================================ one step

/-- What a step makes of a walk. -/
inductive Moves (walk : Walk) : Step → Walk → Prop
  /-- The text left is an end of what was left. -/
  | forward {step : Step} {rest : List Char} (ahead : rest <:+ walk.rest) :
      Moves walk step { walk with rest }
  /-- The cursor is noted. -/
  | mark :
      Moves walk .mark
        { walk with marks := walk.marks ++ [walk.toCursor] }
  /-- The cursor goes back to where it was once noted. -/
  | back {index : Nat} {cursor : Cursor}
      (noted : walk.marks[index]? = some cursor) :
      Moves walk (.restore index) { walk with toCursor := cursor }

/-- What a walk answers to what was read, and where it goes on: behind
that, or from where it was if nothing was read. -/
def taken {α : Type} (walk : Walk) (answer : α → Answer) :
    Option (α × List Char) → Answer × Walk
  | some (value, rest) => (answer value, { walk with rest })
  | none => (.missing, walk)

section

variable {α : Type} {rule : Cursor.Rule α} {read : Reader α}

/-- A rule that follows a reader is taken as the reader is. -/
theorem ask_eq (h : Cursor.Follows rule read) (walk : Walk)
    (answer : α → Answer) :
    walk.ask rule answer = walk.taken answer (read walk.rest) := by
  have hrun : rule.optional.run walk.toCursor
      = Cursor.leave walk.rest (read walk.rest) := h walk.rest
  unfold ask act
  rw [hrun]
  cases read walk.rest with
  | none => rfl
  | some found => rfl

/-- An expected text is answered for in the same way. -/
theorem act_consumeLiteral (walk : Walk) (expected : List Char) :
    walk.act (Cursor.consumeLiteral expected) .truth
      = match Reader.literal expected walk.rest with
        | some ((), rest) => (.truth true, { walk with rest })
        | none => (.truth false, walk) := by
  unfold act
  cases hread : Reader.literal expected walk.rest with
  | none =>
      have hrun := Cursor.consumeLiteral_of_none hread
      exact congrArg (fun ran => (Answer.truth ran.1, Walk.mk ran.2 _)) hrun
  | some found =>
      have hrun := Cursor.consumeLiteral_of_some hread
      exact congrArg (fun ran => (Answer.truth ran.1, Walk.mk ran.2 _)) hrun

/-- A rule that follows a reader goes forward. -/
theorem ask_moves (walk : Walk) (h : Cursor.Follows rule read)
    (hread : read.Advances) (answer : α → Answer) (step : Step) :
    Moves walk step (walk.ask rule answer).2 := by
  rw [ask_eq h]
  cases hfound : read walk.rest with
  | none => exact .forward (List.suffix_refl _)
  | some found => exact .forward (hread hfound)

end

theorem step_moves (walk : Walk) (step : Step) :
    Moves walk step (walk.step step).2 := by
  cases step with
  | unsigned =>
      exact walk.ask_moves Cursor.readUnsigned_follows
        Reader.unsigned_consumes.advances _ _
  | signed =>
      exact walk.ask_moves Cursor.readSigned_follows
        Reader.signed_consumes.advances _ _
  | literal expected =>
      simp only [step, act_consumeLiteral]
      split
      · next hread => exact .forward (Reader.literal_advances _ hread)
      · exact .forward (List.suffix_refl _)
  | skip => exact .forward (Text.skipBlank_isSuffix _)
  | exhausted => exact .forward (Text.skipBlank_isSuffix _)
  | mark => exact .mark
  | restore index =>
      simp only [step]
      split
      · next hnoted => exact .back hnoted
      · exact .forward (List.suffix_refl _)
  | atMark index => exact .forward (List.suffix_refl _)
  | repeatCount =>
      exact walk.ask_moves Cursor.readRepeatCount_follows
        Grammar.repeatCount_advances _ _
  | rollList =>
      exact walk.ask_moves Cursor.readRollList_follows
        Grammar.rollList_consumes.advances _ _
  | roll =>
      exact walk.ask_moves Cursor.readRoll_follows
        Grammar.roll_consumes.advances _ _
  | die =>
      exact walk.ask_moves Cursor.readDie_follows
        Grammar.die_consumes.advances _ _
  | group =>
      exact walk.ask_moves Cursor.readGroup_follows
        Grammar.group_consumes.advances _ _
  | dieAfter first =>
      exact walk.ask_moves (Cursor.readDieAfter_follows first)
        (Grammar.dieAfter_advances first) _ _

/-- Only a step back can make the text longer. -/
theorem rest_step_isSuffix {walk : Walk} {step : Step}
    (h : ∀ index, step ≠ .restore index) :
    (walk.step step).2.rest <:+ walk.rest := by
  have hmoves := walk.step_moves step
  generalize (walk.step step).2 = next at hmoves
  cases hmoves with
  | forward ahead => exact ahead
  | mark => exact List.suffix_refl _
  | back noted => exact absurd rfl (h _)

-- ================================================== finding nothing

section

variable {α : Type} {rule : Cursor.Rule α} {read : Reader α} {walk : Walk}
  {answer : α → Answer}

/-- A rule that follows a reader and found nothing has left the walk
alone, if finding something is never answered as a miss. -/
theorem ask_of_miss (h : Cursor.Follows rule read)
    (hfound : ∀ value, (answer value).isMiss = false)
    (hmiss : (walk.ask rule answer).1.isMiss = true) :
    (walk.ask rule answer).2 = walk := by
  rw [ask_eq h] at hmiss ⊢
  cases hread : read walk.rest with
  | none => rfl
  | some found =>
      rw [hread] at hmiss
      exact absurd hmiss (by simp [taken, hfound])

/-- A rule that follows a reader that uses text up, and found something,
has left less text. -/
theorem length_ask_lt (h : Cursor.Follows rule read) (hread : read.Consumes)
    (hfound : (walk.ask rule answer).1.isMiss = false) :
    (walk.ask rule answer).2.rest.length < walk.rest.length := by
  rw [ask_eq h] at hfound ⊢
  cases hsome : read walk.rest with
  | none =>
      rw [hsome] at hfound
      cases hfound
  | some found => exact (hread hsome).2

end

/-- A step that found nothing has left the walk alone, marks and leading
blanks included; only the question whether anything is left passes over
blanks to answer no. -/
theorem step_of_miss {walk : Walk} {step : Step}
    (hstep : step ≠ .exhausted) (h : (walk.step step).1.isMiss = true) :
    (walk.step step).2 = walk := by
  cases step with
  | unsigned =>
      exact ask_of_miss Cursor.readUnsigned_follows (fun _ => rfl) h
  | signed => exact ask_of_miss Cursor.readSigned_follows (fun _ => rfl) h
  | literal expected =>
      simp only [step, act_consumeLiteral] at h ⊢
      split
      · next hread =>
          rw [hread] at h
          cases h
      · rfl
  | skip => cases h
  | exhausted => exact absurd rfl hstep
  | mark => cases h
  | restore index =>
      simp only [step] at h
      split at h
      · cases h
      · cases h
  | atMark index => rfl
  | repeatCount =>
      exact ask_of_miss Cursor.readRepeatCount_follows (fun _ => rfl) h
  | rollList =>
      exact ask_of_miss Cursor.readRollList_follows (fun _ => rfl) h
  | roll => exact ask_of_miss Cursor.readRoll_follows (fun _ => rfl) h
  | die => exact ask_of_miss Cursor.readDie_follows (fun _ => rfl) h
  | group => exact ask_of_miss Cursor.readGroup_follows (fun _ => rfl) h
  | dieAfter first =>
      exact ask_of_miss (Cursor.readDieAfter_follows first)
        (fun _ => rfl) h

/-- A rule that has at least one character uses one up. -/
theorem length_step_lt {walk : Walk} {step : Step}
    (hstep : step.isSolid = true) (h : (walk.step step).1.isMiss = false) :
    (walk.step step).2.rest.length < walk.rest.length := by
  cases step with
  | group =>
      exact length_ask_lt Cursor.readGroup_follows Grammar.group_consumes h
  | die =>
      exact length_ask_lt Cursor.readDie_follows Grammar.die_consumes h
  | roll =>
      exact length_ask_lt Cursor.readRoll_follows Grammar.roll_consumes h
  | rollList =>
      exact length_ask_lt Cursor.readRollList_follows
        Grammar.rollList_consumes h
  | _ => cases hstep

-- ========================================================= whole walks

/-- The walk behind steps taken one after another. -/
def after (walk : Walk) (steps : List Step) : Walk :=
  steps.foldl (fun walk step => (walk.step step).2) walk

/-- All texts of a walk, the one left and those at its marks, are ends of
a text. -/
structure Inside (text : List Char) (walk : Walk) : Prop where
  rest : walk.rest <:+ text
  marks : ∀ noted ∈ walk.marks, noted.rest <:+ text

theorem Inside.step {text : List Char} {walk : Walk} (h : Inside text walk)
    (step : Step) : Inside text (walk.step step).2 := by
  have hmoves := walk.step_moves step
  generalize (walk.step step).2 = next at hmoves
  cases hmoves with
  | forward ahead => exact ⟨ahead.trans h.rest, h.marks⟩
  | mark =>
      refine ⟨h.rest, ?_⟩
      rw [List.forall_mem_append]
      exact ⟨h.marks, by simpa using h.rest⟩
  | back noted => exact ⟨h.marks _ (List.mem_of_getElem? noted), h.marks⟩

/-- However a walk goes on, its texts stay ends of the text. -/
theorem Inside.after {text : List Char} {walk : Walk} (h : Inside text walk)
    (steps : List Step) : Inside text (walk.after steps) := by
  induction steps generalizing walk with
  | nil => exact h
  | cons step steps ih => exact ih (h.step step)

theorem inside_ofText (text : List Char) : Inside text (ofText text) :=
  ⟨List.suffix_refl _, by simp [ofText]⟩

/-- A step may set a mark and leaves those that are set. -/
theorem marks_step (walk : Walk) (step : Step) :
    walk.marks <+: (walk.step step).2.marks := by
  have hmoves := walk.step_moves step
  generalize (walk.step step).2 = next at hmoves
  cases hmoves with
  | forward => exact List.prefix_refl _
  | mark => exact List.prefix_append _ _
  | back => exact List.prefix_refl _

theorem marks_after (walk : Walk) (steps : List Step) :
    walk.marks <+: (walk.after steps).marks := by
  induction steps generalizing walk with
  | nil => exact List.prefix_refl _
  | cons step steps ih => exact (walk.marks_step step).trans (ih _)

theorem step_restore {walk : Walk} {index : Nat} {mark : Cursor}
    (h : walk.marks[index]? = some mark) :
    walk.step (.restore index)
      = (.done, { walk with toCursor := mark }) := by
  simp only [step, h]
  rfl

/-- A mark is numbered by the marks in front of it, and going back to it
brings back the cursor as it was when the mark was set, whatever was done
since. -/
theorem restore_mark (walk : Walk) (later : List Step) :
    (((walk.step .mark).2.after later).step
        (.restore walk.marks.length)).2.toCursor = walk.toCursor := by
  have hset : (walk.step .mark).2.marks[walk.marks.length]?
      = some walk.toCursor := List.getElem?_concat_length
  obtain ⟨more, hmarks⟩ := (walk.step .mark).2.marks_after later
  obtain ⟨hindex, -⟩ := List.getElem?_eq_some_iff.1 hset
  have hkept : ((walk.step .mark).2.after later).marks[walk.marks.length]?
      = some walk.toCursor := by
    rw [← hmarks, List.getElem?_append_left hindex, hset]
  rw [step_restore hkept]

/-- The law of walks. Behind any steps from the start of a text, what is
left is an end of that text. A step from there that finds nothing
changes nothing; a step that is no step back leaves an end of what was
left, and a shorter one if it found a group, a die, a roll or a roll
list; and a mark can be set there, and going back to it brings back the
text left there, whatever is done in between. -/
theorem walk_law (text : List Char) (steps : List Step) :
    let walk := (ofText text).after steps
    walk.rest <:+ text
      ∧ (∀ step, step ≠ .exhausted → (walk.step step).1.isMiss = true →
        (walk.step step).2 = walk)
      ∧ (∀ step, (∀ index, step ≠ .restore index) →
        (walk.step step).2.rest <:+ walk.rest)
      ∧ (∀ step, step.isSolid = true →
        (walk.step step).1.isMiss = false →
        (walk.step step).2.rest.length < walk.rest.length)
      ∧ (walk.step .mark).1 = .marked walk.marks.length
      ∧ ∀ later,
        (((walk.step .mark).2.after later).step
            (.restore walk.marks.length)).2.rest
          = walk.rest := by
  intro walk
  refine ⟨((inside_ofText text).after steps).rest, ?_, ?_, ?_, rfl, ?_⟩
  · intro step hstep hmiss
    exact step_of_miss hstep hmiss
  · intro step hstep
    exact rest_step_isSuffix hstep
  · intro step hstep hfound
    exact length_step_lt hstep hfound
  · intro later
    exact congrArg Cursor.rest (restore_mark walk later)

-- a die that fails in its second group is given back as a whole
example :
    ((ofText " d4 & 3d".toList).step .die).2.rest = " d4 & 3d".toList := by
  decide +kernel

end DiceNotation.Walk
