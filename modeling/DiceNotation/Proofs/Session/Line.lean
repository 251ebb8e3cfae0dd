/-
Lines of a session, seen from the library below it. A session trims a
line, cuts the label off and rolls the rest entry by entry, with its own
source; who only wants the outcomes gives the rest of the line to
`Rolls.rollText`. The two agree on all that both speak of: whether the
rest can be read, the outcomes and their order, the words they take, and
the text that a rejection carries.

# Two loops

Each of the two has a loop over the dice. The session's rolls a die with
what the one before has left of the source, and keeps its line and its
records at once, but not its outcome; the other loop keeps the outcomes
and nothing else. By induction on the dice both draw the same words, and
the lines are those of the outcomes, in order (`rollEntries_eq`).

# Where a line is cut

`LabeledLine.Parts` says what the parts of a line are: around the last
equals sign, or all of the line if there is none. It is a relation, so
that nothing of how the program looks for the sign is in it; the program
looks from the end of the line, and finds these parts and no others
(`LabeledLine.parts_iff`).
-/
import DiceNotation.Proofs.Notation.Acceptance
import DiceNotation.Proofs.Roll.Sequence
import DiceNotation.Random.WordList
import DiceNotation.Session

namespace DiceNotation

-- ================================================================ parts

/-- The label of a line and the text of its rolls: what stands before
the last equals sign, trimmed, and what stands behind it; or no label
and the whole line. -/
inductive LabeledLine.Parts (line : List Char) :
    Option String → String → Prop
  | bare (plain : '=' ∉ line) : Parts line none (String.ofList line)
  | labeled {label rolls : List Char} (cut : line = label ++ '=' :: rolls)
      (last : '=' ∉ rolls) :
      Parts line (some (String.ofList (Text.trim label)))
        (String.ofList rolls)

/-- No character of a text without the mark stops the search for it. -/
theorem ne_mark_of_not_mem {mark : Char} {text : List Char}
    (h : mark ∉ text) : ∀ c ∈ text.reverse, (c != mark) = true := by
  intro c hc
  rw [bne_iff_ne]
  rintro rfl
  exact h (List.mem_reverse.1 hc)

/-- A text without the mark is not cut. -/
theorem splitAtLast_of_not_mem {mark : Char} {text : List Char}
    (h : mark ∉ text) : splitAtLast mark text = none := by
  have hnone := List.dropWhile_eq_nil_iff.2 (ne_mark_of_not_mem h)
  unfold splitAtLast
  rw [hnone]

/-- A text is cut at a mark that no other follows. -/
theorem splitAtLast_append {mark : Char} {before behind : List Char}
    (h : mark ∉ behind) :
    splitAtLast mark (before ++ mark :: behind)
      = some (before, behind) := by
  -- from the end, the first mark is the last one of the text
  have hall := ne_mark_of_not_mem h
  have hreverse : (before ++ mark :: behind).reverse
      = behind.reverse ++ mark :: before.reverse := by
    simp
  unfold splitAtLast
  rw [hreverse, List.takeWhile_append_of_pos hall,
    List.dropWhile_append_of_pos hall,
    List.takeWhile_cons_of_neg (by simp),
    List.dropWhile_cons_of_neg (by simp)]
  simp

/-- Every text that has the mark has a last one. -/
theorem exists_last_mark {mark : Char} {text : List Char}
    (h : mark ∈ text) :
    ∃ before behind, text = before ++ mark :: behind
      ∧ mark ∉ behind := by
  obtain ⟨back, front, hreverse, hback⟩ :=
    List.eq_append_cons_of_mem (List.mem_reverse.2 h)
  refine ⟨front.reverse, back.reverse, ?_, by simpa using hback⟩
  rw [← List.reverse_reverse text, hreverse]
  simp

namespace LabeledLine

/-- Every line has parts, and they are those it is split in. -/
theorem parts_split (line : String) :
    Parts line.toList (split line).1 (split line).2 := by
  unfold split
  by_cases h : '=' ∈ line.toList
  · obtain ⟨before, behind, hcut, hlast⟩ := exists_last_mark h
    rw [hcut, splitAtLast_append hlast]
    exact .labeled rfl hlast
  · rw [splitAtLast_of_not_mem h]
    simpa using Parts.bare h

/-- A line has no other parts. -/
theorem Parts.eq_split {line : String} {label : Option String}
    {rolls : String} (h : Parts line.toList label rolls) :
    split line = (label, rolls) := by
  unfold split
  cases h with
  | bare plain => rw [splitAtLast_of_not_mem plain, String.ofList_toList]
  | labeled cut last => rw [cut, splitAtLast_append last]

/-- The parts of a line are those it is split in. -/
theorem parts_iff (line : String) (label : Option String)
    (rolls : String) :
    Parts line.toList label rolls
      ↔ label = (split line).1 ∧ rolls = (split line).2 := by
  constructor
  · intro h
    rw [h.eq_split]
    exact ⟨rfl, rfl⟩
  · intro h
    obtain ⟨rfl, rfl⟩ := h
    exact parts_split line

end LabeledLine

-- ================================================================ lines

namespace Session

/-- The line of a die and what it showed: set in below a label, and with
the notation of the die where that is wanted. -/
def resultLine (showNotation : Bool) (label : Option String) (die : Die)
    (outcome : Outcome) : String :=
  (if label.isSome then "  " else "")
    ++ (if showNotation then die.toString ++ "  =>  " else "")
    ++ outcome.toString

theorem entryLine_eq (showNotation : Bool) (indent : List Char) (die : Die)
    (outcome : Outcome) :
    entryLine showNotation indent die outcome
      = String.ofList indent
        ++ (if showNotation then die.toString ++ "  =>  " else "")
        ++ outcome.toString := by
  unfold entryLine Die.toString Outcome.toString
  cases showNotation with
  | false => simp [String.ofList_append]
  | true =>
      have harrow : String.ofList [' ', ' ', '=', '>', ' ', ' ']
          = "  =>  " := rfl
      simp only [if_true, String.ofList_append, harrow, String.append_assoc]

/-- Without a label nothing stands in front. -/
theorem entryLine_bare (showNotation : Bool) :
    entryLine showNotation [] = resultLine showNotation none := by
  funext die outcome
  exact entryLine_eq showNotation [] die outcome

/-- Below a label two blanks do. -/
theorem entryLine_labeled (showNotation : Bool) (label : String) :
    entryLine showNotation [' ', ' ']
      = resultLine showNotation (some label) := by
  funext die outcome
  exact entryLine_eq showNotation [' ', ' '] die outcome

-- ============================================================= the loop

variable {σ : Type} [WordSource σ]

theorem rollEntry_eq (showNotation : Bool) (indent : List Char)
    (rolling : Rolling σ) (die : Die) :
    rollEntry showNotation indent rolling die
      = ⟨(die.roll rolling.source).2,
        rolling.lines.push (entryLine showNotation indent die
          (die.roll rolling.source).1),
        rolling.records
          ++ ((die.roll rolling.source).1.records die).toArray⟩ := rfl

/-- The loop of a session rolls its dice as they are rolled without one:
it leaves the source where they leave it, and puts the line and the
records of each outcome behind what there is. -/
theorem rollEntries_eq (showNotation : Bool) (indent : List Char)
    (dice : List Die) (rolling : Rolling σ) :
    rollEntries showNotation indent dice rolling
      = ⟨(Rolls.roll dice rolling.source).2,
        rolling.lines ++ (dice.zipWith (entryLine showNotation indent)
          (Rolls.roll dice rolling.source).1).toArray,
        rolling.records ++ (Rolls.rollRecords dice
          (Rolls.roll dice rolling.source).1).toArray⟩ := by
  induction dice generalizing rolling with
  | nil => simp [rollEntries, Rolls.rollRecords]
  | cons die dice ih =>
      unfold rollEntries
      rw [ih, rollEntry_eq, Rolls.roll_cons]
      simp [Rolls.rollRecords]

/-- The dice of a line are rolled to the outcomes that they have without
a session. Given out are the label, if there is one, and a line for each
outcome. -/
theorem rollLabeled_eq (session : Session σ) (label : Option String)
    (dice : List Die) :
    session.rollLabeled ⟨label, dice⟩
      = ⟨(Rolls.roll dice session.source).2,
        (label.toList
          ++ dice.zipWith (resultLine session.showNotation label)
            (Rolls.roll dice session.source).1).toArray,
        (Rolls.rollRecords dice
          (Rolls.roll dice session.source).1).toArray⟩ := by
  cases label with
  | none =>
      simp only [rollLabeled, rollEntries_eq, entryLine_bare]
      simp
  | some label =>
      simp only [rollLabeled, rollEntries_eq, entryLine_labeled _ label]
      simp

-- ================================================================ turns

/-- A line that is neither blank nor a clear means what its rolls mean:
they are to be rolled if they can be read, and it is rejected
otherwise. -/
theorem turnOf_of_split {line : String}
    (hblank : Text.trim line.toList ≠ [])
    (hclear : (Text.trim line.toList).map Char.toLower ≠ clearWord)
    {label : Option String} {rolls : String}
    (hsplit : LabeledLine.split (String.ofList (Text.trim line.toList))
      = (label, rolls)) :
    turnOf line
      = match Rolls.parse rolls with
        | .error rejection => .reject rejection
        | .ok dice => .roll ⟨label, dice⟩ := by
  unfold turnOf LabeledLine.parse
  simp only [if_neg hclear, hsplit]
  rw [if_neg (by simpa using hblank)]
  cases hparse : Rolls.parse rolls with
  | error rejection => rfl
  | ok dice => rfl

/-- A line that is neither blank nor a clear has a label, or none, and
rolls, and is answered as the text of its rolls is rolled: with the
label and a line for each outcome if that text can be read, and the
source is left as rolling the text leaves it; else with the rejection of
that text, and no word is taken. -/
theorem take_eq_rollText (session : Session σ) (line : String)
    (hblank : Text.trim line.toList ≠ [])
    (hclear : (Text.trim line.toList).map Char.toLower ≠ clearWord) :
    ∃ label rolls,
      (∀ label' rolls',
        LabeledLine.Parts (Text.trim line.toList) label' rolls'
          ↔ label' = label ∧ rolls' = rolls)
      ∧ ((∃ lines, (session.take line).1 = .ok (.rolled lines))
        ↔ ∃ outcomes,
          (Rolls.rollText rolls session.source).1 = .ok outcomes)
      ∧ (∀ outcomes source,
        Rolls.rollText rolls session.source = (.ok outcomes, source) →
        ∃ dice, Rolls.parse rolls = .ok dice
          ∧ dice.length = outcomes.length
          ∧ (session.take line).1 = .ok (.rolled (label.toList
            ++ dice.zipWith (resultLine session.showNotation label)
              outcomes))
          ∧ (session.take line).2.source = source)
      ∧ ∀ rejection source,
        Rolls.rollText rolls session.source = (.error rejection, source) →
        rejection.input = rolls
          ∧ (session.take line).1 = .error rejection
          ∧ (session.take line).2.source = session.source
          ∧ source = session.source := by
  obtain ⟨⟨label, rolls⟩, hsplit⟩ : ∃ parts,
      LabeledLine.split (String.ofList (Text.trim line.toList)) = parts :=
    ⟨_, rfl⟩
  have hturn := turnOf_of_split hblank hclear hsplit
  refine ⟨label, rolls, ?_, ?_⟩
  · intro label' rolls'
    have hparts := LabeledLine.parts_iff
      (String.ofList (Text.trim line.toList)) label' rolls'
    rwa [String.toList_ofList, hsplit] at hparts
  cases hparse : Rolls.parse rolls with
  | ok dice =>
      unfold take
      rw [hturn, hparse, Rolls.rollText_of_ok hparse]
      simp only [apply_roll, rollLabeled_eq]
      refine ⟨⟨fun _ => ⟨_, rfl⟩, fun _ => ⟨_, rfl⟩⟩, ?_, ?_⟩
      · intro outcomes source h
        cases h
        exact ⟨dice, rfl, (Rolls.length_roll _ _).symm, rfl, rfl⟩
      · intro rejection source h
        cases h
  | error rejection =>
      unfold take
      rw [hturn, hparse, Rolls.rollText_of_error hparse]
      refine ⟨⟨?_, ?_⟩, ?_, ?_⟩
      · intro h
        obtain ⟨lines, h⟩ := h
        cases h
      · intro h
        obtain ⟨outcomes, h⟩ := h
        cases h
      · intro outcomes source h
        cases h
      · intro rejection' source h
        cases h
        exact ⟨Rolls.input_of_parse_eq_error hparse, rfl, rfl, rfl⟩

/-- A label may hold equals signs itself; below it each outcome stands
two blanks in. -/
theorem take_of_labeled :
    ∃ outcomes source,
      Rolls.rollText " 2d1-1;d1" (WordList.ofList []) = (.ok outcomes, source)
        ∧ ((new (WordList.ofList []) true).take " a=b = 2d1-1;d1\t").1
          = .ok (.rolled ["a=b", "  2d1-1  =>  [1, 1] -1 = 1",
            "  1d1  =>  [1] = 1"])
        ∧ ((new (WordList.ofList []) true).take
            " a=b = 2d1-1;d1\t").2.source = source := by
  obtain ⟨label, rolls, hparts, -, hrolled, -⟩ :=
    take_eq_rollText (new (WordList.ofList []) true)
      " a=b = 2d1-1;d1\t" (by decide) (by decide)
  have hcut : LabeledLine.Parts (Text.trim " a=b = 2d1-1;d1\t".toList)
      (some "a=b") " 2d1-1;d1" :=
    @LabeledLine.Parts.labeled _ "a=b ".toList " 2d1-1;d1".toList
      (by decide) (by decide)
  obtain ⟨rfl, rfl⟩ := (hparts _ _).1 hcut
  have hroll : Rolls.rollText " 2d1-1;d1" (WordList.ofList [])
      = (.ok [.ofFaces [1, 1] (-1), .ofFaces [1] 0], ⟨[], 3⟩) := by
    decide +kernel
  obtain ⟨dice, hparse, -, hlines, hsource⟩ := hrolled _ _ hroll
  have hdice : Rolls.parse " 2d1-1;d1"
      = .ok [.group ⟨⟨2, by decide⟩, .one, -1⟩, .group ⟨.one, .one, 0⟩] := by
    decide +kernel
  rw [hdice] at hparse
  cases hparse
  refine ⟨_, _, hroll, ?_, hsource⟩
  rw [hlines]
  decide +kernel

end Session

end DiceNotation
