/-
Sessions that show the notation and sessions that do not. Whether it is
shown is a matter of the printed lines alone: two sessions that differ in
nothing else, given the same lines, stay in step. They answer each line
in the same way, draw the same words and give out equally many lines;
and where one of them shows the notation, it stands between the indent
and the outcome, and is read again as the die that was rolled.

# Two runs side by side

The two histories are not the same, since they hold what was printed, so
the runs are kept together by what else they have: the same source and
histories of one length (`InStep`). One line keeps that (`InStep.take`),
because what a line means hangs on no session, and the loop that rolls
its dice leaves the source where it is left without a session
(`rollLabeled_eq`); only the lines of a roll are put together in two
ways. A run keeps it by induction on its lines.
-/
import DiceNotation.Proofs.Notation.NormalForm
import DiceNotation.Proofs.Session.Line
import DiceNotation.Proofs.Session.Run

namespace DiceNotation

-- ============================================================== notation

/-- A die that a line was read as is what its notation is read as. -/
theorem Die.RightNested.parse_own_notation {die : Die} (h : die.RightNested)
    (hlimits : die.WithinLimits) : Die.parse die.toString = .ok die :=
  Die.parse_eq_ok_iff.2
    ⟨die.tokens, die.scan_toString, h.diePhrase_tokens hlimits⟩

/-- The dice of a line are those that the text of its rolls is read
as. -/
theorem LabeledLine.exists_parse {line : String} {labeled : LabeledLine}
    (h : parse line = .ok labeled) :
    ∃ rolls, Rolls.parse rolls = .ok labeled.dice := by
  unfold parse at h
  split at h
  split at h
  · cases h
  · next hrolls =>
      cases h
      exact ⟨_, hrolls⟩

/-- The notation of each die of a line is read as the die. -/
theorem LabeledLine.parse_toString_of_mem {line : String}
    {labeled : LabeledLine} (h : parse line = .ok labeled) :
    ∀ die ∈ labeled.dice, Die.parse die.toString = .ok die := by
  intro die hdie
  obtain ⟨rolls, hrolls⟩ := exists_parse h
  obtain ⟨hnested, hlimits⟩ := Rolls.shape_of_parse hrolls die hdie
  exact hnested.parse_own_notation hlimits

namespace Session

variable {σ : Type} [WordSource σ]

-- ================================================================ answers

/-- What stands in front of an outcome below a label. -/
def indent (label : Option String) : String :=
  if label.isSome then "  " else ""

/-- What a session that shows the notation and one that does not answer
to one line: both skip it, clear, or reject it with the same rejection;
or both have rolled the dice that it was read as, to the same outcomes,
and the lines for these differ by the notation, which is read again as
the die. -/
inductive Counterparts (line : String) (before behind : σ) :
    Answer → Answer → Prop
  | skipped : Counterparts line before behind (.ok .skipped) (.ok .skipped)
  | cleared : Counterparts line before behind (.ok .cleared) (.ok .cleared)
  | rejected (rejection : Rejection) :
      Counterparts line before behind (.error rejection) (.error rejection)
  | rolled {label : Option String} {dice : List Die}
      {outcomes : List Outcome}
      (read : LabeledLine.parse (String.ofList (Text.trim line.toList))
        = .ok ⟨label, dice⟩)
      (rolled : Rolls.roll dice before = (outcomes, behind))
      (reread : ∀ die ∈ dice, Die.parse die.toString = .ok die) :
      Counterparts line before behind
        (.ok (.rolled (label.toList ++ dice.zipWith (fun die outcome =>
          indent label ++ (die.toString ++ "  =>  ") ++ outcome.toString)
            outcomes)))
        (.ok (.rolled (label.toList ++ dice.zipWith (fun _ outcome =>
          indent label ++ outcome.toString) outcomes)))

/-- The line of an outcome where the notation is shown. -/
theorem resultLine_shown (label : Option String) :
    resultLine true label
      = fun die outcome =>
        indent label ++ (die.toString ++ "  =>  ") ++ outcome.toString :=
  rfl

/-- The line of an outcome where it is not. -/
theorem resultLine_plain (label : Option String) :
    resultLine false label
      = fun _ outcome => indent label ++ outcome.toString := by
  funext die outcome
  unfold resultLine indent
  rw [if_neg Bool.false_ne_true, String.append_empty]

/-- The lines that an answer gives out. -/
def linesOf (answer : Answer) : List String := (rolled? answer).getD []

/-- Counterparts give out equally many lines. -/
theorem Counterparts.length_eq {line : String} {before behind : σ}
    {shown plain : Answer} (h : Counterparts line before behind shown plain) :
    (linesOf shown).length = (linesOf plain).length := by
  cases h with
  | skipped => rfl
  | cleared => rfl
  | rejected rejection => rfl
  | rolled read rolled reread => simp [linesOf, rolled?]

-- =============================================================== one step

/-- A line that has dice to roll was read as these. -/
theorem parse_of_turnOf {line : String} {labeled : LabeledLine}
    (h : turnOf line = .roll labeled) :
    LabeledLine.parse (String.ofList (Text.trim line.toList))
      = .ok labeled := by
  unfold turnOf at h
  simp only at h
  split at h
  · cases h
  · split at h
    · cases h
    · split at h
      · cases h
      · next hparse =>
          cases h
          exact hparse

/-- Two sessions of which one shows the notation and the other does not,
and that are otherwise in the same place. -/
structure InStep (shown plain : Session σ) : Prop where
  shows : shown.showNotation = true
  hides : plain.showNotation = false
  source : shown.source = plain.source
  length : shown.history.length = plain.history.length

/-- Both answer a line alike, and are in step behind it. -/
theorem InStep.take {shown plain : Session σ} (h : InStep shown plain)
    (line : String) :
    Counterparts line plain.source (plain.take line).2.source
        (shown.take line).1 (plain.take line).1
      ∧ InStep (shown.take line).2 (plain.take line).2 := by
  obtain ⟨hshows, hhides, hsource, hlength⟩ := h
  unfold Session.take
  cases hmeans : turnOf line with
  | skip => exact ⟨.skipped, hshows, hhides, hsource, hlength⟩
  | clear => exact ⟨.cleared, hshows, hhides, hsource, rfl⟩
  | reject rejection =>
      exact ⟨.rejected rejection, hshows, hhides, hsource, hlength⟩
  | roll labeled =>
      obtain ⟨label, dice⟩ := labeled
      have hread := parse_of_turnOf hmeans
      have hanswers := Counterparts.rolled hread
        (Rolls.roll dice plain.source).eta.symm
        (LabeledLine.parse_toString_of_mem hread)
      have hhistory : ∀ {first second : List String},
          first.length = second.length →
          (shown.history ++ first).length
            = (plain.history ++ second).length := by
        intro first second hcount
        rw [List.length_append, List.length_append, hlength, hcount]
      simp only [apply_roll, rollLabeled_eq]
      rw [hshows, hhides, hsource, resultLine_shown, resultLine_plain]
      exact ⟨hanswers, rfl, rfl, rfl, hhistory hanswers.length_eq⟩

-- ================================================================= runs

/-- Sessions in step stay in step through a run. -/
theorem InStep.after {shown plain : Session σ} (h : InStep shown plain)
    (lines : List String) (n : Nat) :
    InStep (shown.after lines n) (plain.after lines n) := by
  induction lines generalizing shown plain n with
  | nil =>
      unfold Session.after
      rw [List.take_nil]
      exact h
  | cons line lines ih =>
      cases n with
      | zero => exact h
      | succ n => exact ih (h.take line).2 n

/-- Each line of a run is answered alike by sessions in step. -/
theorem InStep.exists_answers {shown plain : Session σ}
    (h : InStep shown plain) {lines : List String} {n : Nat}
    {line : String} (hline : lines[n]? = some line) :
    ∃ first second, (shown.run lines).1[n]? = some first
      ∧ (plain.run lines).1[n]? = some second
      ∧ Counterparts line (plain.after lines n).source
        (plain.after lines (n + 1)).source first second := by
  induction lines generalizing shown plain n with
  | nil => cases hline
  | cons head lines ih =>
      obtain ⟨hanswers, hnext⟩ := h.take head
      cases n with
      | zero =>
          injection hline with hline
          subst hline
          exact ⟨_, _, rfl, rfl, hanswers⟩
      | succ n => exact ih hnext hline

/-- The notation is a matter of what is printed, and of nothing else.
Take two sessions of the same source and the same history, one that
shows the notation and one that does not. After each of the same lines
they have the same source and histories of the same length. The line is
skipped, cleared, rejected or rolled by both, with the same rejection
and with equally many lines; and where it is rolled, the label is the
same, and each of the other lines differs by the notation of its die
behind the indent, which is read again as the die that was rolled. -/
theorem notation_only_printed (source : σ) (history lines : List String)
    (n : Nat) :
    ((mk source true history).after lines n).source
        = ((mk source false history).after lines n).source
      ∧ ((mk source true history).after lines n).history.length
        = ((mk source false history).after lines n).history.length
      ∧ ∀ line, lines[n]? = some line →
        ∃ shown plain, ((mk source true history).run lines).1[n]? = some shown
          ∧ ((mk source false history).run lines).1[n]? = some plain
          ∧ (linesOf shown).length = (linesOf plain).length
          ∧ Counterparts line
            ((mk source false history).after lines n).source
            ((mk source false history).after lines (n + 1)).source
            shown plain := by
  have hstep : InStep (mk source true history) (mk source false history) :=
    ⟨rfl, rfl, rfl, rfl⟩
  obtain ⟨-, -, hsource, hlength⟩ := hstep.after lines n
  refine ⟨hsource, hlength, ?_⟩
  intro line hline
  obtain ⟨shown, plain, hshown, hplain, hanswers⟩ :=
    hstep.exists_answers hline
  exact ⟨shown, plain, hshown, hplain, hanswers.length_eq, hanswers⟩

end Session

end DiceNotation
