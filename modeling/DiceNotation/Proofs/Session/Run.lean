/-
Runs of a session over any lines. A session answers each line; a run is
the answers to all lines, in order, and the session left at the end.

# What a run keeps

The history of a session is what its answers have given out since it was
last cleared (`shown`). That is an invariant of the run, carried by one
step: a roll gives out its lines and adds the same lines to the history,
a clear drops both, and a line that is skipped or rejected touches
neither (`take_of_quiet`, `take_of_clear`, `history_take`).

# What can be left out

Lines that are skipped or rejected leave the whole session as it was, so
a run without some of them is the same run (`run_of_thinned_quiet`). A
clear leaves the source as it was, and no answer looks at the history;
so without some of the clears, too, all that is left is answered as
before and the source ends in the same state, though the history may be
longer (`run_of_thinned_still`). The second comparison needs an
induction on two sessions at once that agree on all but their history
(`Alike`).
-/
import DiceNotation.Session
import Mathlib.Data.List.Induction

namespace DiceNotation.Session

variable {σ : Type} [WordSource σ]

-- ================================================================ runs

/-- What a session answers to a line. -/
abbrev Answer := Except Rejection Reply

/-- The answers to lines, in order, and the session behind them. -/
def run (session : Session σ) : List String → List Answer × Session σ
  | [] => ([], session)
  | line :: lines =>
      let (answer, next) := session.take line
      let (answers, last) := next.run lines
      (answer :: answers, last)

@[simp] theorem run_nil (session : Session σ) :
    session.run [] = ([], session) := rfl

@[simp] theorem run_cons (session : Session σ) (line : String)
    (lines : List String) :
    session.run (line :: lines)
      = ((session.take line).1 :: ((session.take line).2.run lines).1,
        ((session.take line).2.run lines).2) := rfl

theorem length_run (session : Session σ) (lines : List String) :
    (session.run lines).1.length = lines.length := by
  induction lines generalizing session with
  | nil => rfl
  | cons line lines ih => simp [ih]

/-- A run goes on from the session that an earlier run left. -/
theorem run_append (session : Session σ) (first second : List String) :
    session.run (first ++ second)
      = ((session.run first).1 ++ ((session.run first).2.run second).1,
        ((session.run first).2.run second).2) := by
  induction first generalizing session with
  | nil => rfl
  | cons line first ih => simp [ih]

/-- The answers to the first lines do not depend on later ones. -/
theorem run_take (session : Session σ) (lines : List String) (n : Nat) :
    (session.run (lines.take n)).1 = (session.run lines).1.take n := by
  induction lines generalizing session n with
  | nil => simp
  | cons line lines ih =>
      cases n with
      | zero => rfl
      | succ n => simp [ih]

-- =============================================================== kinds

/-- Whether the line was a clear. -/
def isClear : Answer → Bool
  | .ok .cleared => true
  | _ => false

/-- Whether the line was skipped or rejected. -/
def isQuiet : Answer → Bool
  | .error _ => true
  | .ok .skipped => true
  | .ok _ => false

/-- The lines that an answer gives out, if the line was rolled. -/
def rolled? : Answer → Option (List String)
  | .ok (.rolled lines) => some lines
  | _ => none

/-- The answers behind the last clear, or all if there is none. -/
def sinceClear (answers : List Answer) : List Answer :=
  (answers.reverse.takeWhile fun answer => !isClear answer).reverse

/-- All lines given out since the last clear. -/
def shown (answers : List Answer) : List String :=
  ((sinceClear answers).filterMap rolled?).flatten

/-- A clear leaves nothing shown. -/
theorem shown_concat_clear (answers : List Answer) {answer : Answer}
    (h : isClear answer = true) : shown (answers ++ [answer]) = [] := by
  unfold shown sinceClear
  simp [h]

/-- Any other answer shows its lines behind those shown before. -/
theorem shown_concat (answers : List Answer) {answer : Answer}
    (h : isClear answer = false) :
    shown (answers ++ [answer])
      = shown answers ++ (rolled? answer).getD [] := by
  unfold shown sinceClear
  rw [List.reverse_append, List.reverse_singleton, List.singleton_append,
    List.takeWhile_cons_of_pos (by simp [h]), List.reverse_cons,
    List.filterMap_append, List.flatten_append]
  cases hrolled : rolled? answer with
  | none => simp [hrolled]
  | some lines => simp [hrolled]

-- ============================================================ one step

/-- A line that is skipped or rejected leaves the session as it was. -/
theorem take_of_quiet {session : Session σ} {line : String}
    (h : isQuiet (session.take line).1 = true) :
    (session.take line).2 = session := by
  unfold take apply at h ⊢
  cases hturn : turnOf line with
  | skip => rfl
  | clear =>
      rw [hturn] at h
      cases h
  | reject rejection => rfl
  | roll labeled =>
      rw [hturn] at h
      cases h

/-- A clear drops the history and nothing else. -/
theorem take_of_clear {session : Session σ} {line : String}
    (h : isClear (session.take line).1 = true) :
    (session.take line).2 = { session with history := [] } := by
  unfold take apply at h ⊢
  cases hturn : turnOf line with
  | skip =>
      rw [hturn] at h
      cases h
  | clear => rfl
  | reject rejection =>
      rw [hturn] at h
      cases h
  | roll labeled =>
      rw [hturn] at h
      cases h

/-- A line that is no clear adds what it gives out to the history. -/
theorem history_take {session : Session σ} {line : String}
    (h : isClear (session.take line).1 = false) :
    (session.take line).2.history
      = session.history ++ (rolled? (session.take line).1).getD [] := by
  unfold take apply at h ⊢
  cases hturn : turnOf line with
  | skip => simp [rolled?]
  | clear =>
      rw [hturn] at h
      cases h
  | reject rejection => simp [rolled?]
  | roll labeled => simp [rolled?]

-- ========================================================= the history

/-- The history of a run is what its answers have shown. -/
theorem history_run (source : σ) (showNotation : Bool)
    (lines : List String) :
    ((new source showNotation).run lines).2.history
      = shown ((new source showNotation).run lines).1 := by
  induction lines using List.reverseRecOn with
  | nil => rfl
  | append_singleton lines line ih =>
      rw [run_append]
      generalize hrun : (new source showNotation).run lines = before at ih ⊢
      obtain ⟨answers, session⟩ := before
      simp only [run_cons, run_nil]
      cases hclear : isClear (session.take line).1 with
      | true =>
          rw [take_of_clear hclear, shown_concat_clear _ hclear]
      | false =>
          rw [history_take hclear, shown_concat _ hclear, ih]

-- ==================================================== lines left out

/-- The lines of a run with their answers. -/
def steps (session : Session σ) (lines : List String) :
    List (String × Answer) :=
  lines.zip (session.run lines).1

@[simp] theorem steps_cons (session : Session σ) (line : String)
    (lines : List String) :
    session.steps (line :: lines)
      = (line, (session.take line).1)
        :: (session.take line).2.steps lines := rfl

/-- The answers of a run are those of its steps. -/
theorem map_snd_steps (session : Session σ) (lines : List String) :
    (session.steps lines).map Prod.snd = (session.run lines).1 :=
  List.map_snd_zip (Nat.le_of_eq (session.length_run lines))

/-- Some of the steps of a run in their order; each step left out has an
answer of a certain kind. -/
inductive Thinned (kind : Answer → Bool) :
    List (String × Answer) → List (String × Answer) → Prop
  | nil : Thinned kind [] []
  | keep {steps kept : List (String × Answer)} (step : String × Answer)
      (rest : Thinned kind steps kept) :
      Thinned kind (step :: steps) (step :: kept)
  | drop {steps kept : List (String × Answer)} (line : String)
      {answer : Answer} (h : kind answer = true)
      (rest : Thinned kind steps kept) :
      Thinned kind ((line, answer) :: steps) kept

/-- A run without some lines that were skipped or rejected answers the
other lines as before and leaves the same session. -/
theorem run_of_thinned_quiet {session : Session σ}
    {lines : List String} {kept : List (String × Answer)}
    (h : Thinned isQuiet (session.steps lines) kept) :
    session.run (kept.map Prod.fst)
      = (kept.map Prod.snd, (session.run lines).2) := by
  induction lines generalizing session kept with
  | nil =>
      cases h
      rfl
  | cons line lines ih =>
      rw [steps_cons] at h
      cases h with
      | keep _ rest =>
          rw [List.map_cons, run_cons, ih rest]
          rfl
      | drop _ hquiet rest =>
          rw [take_of_quiet hquiet] at rest
          rw [ih rest, run_cons, take_of_quiet hquiet]

/-- Sessions that differ in nothing but their histories. -/
def Alike (first second : Session σ) : Prop :=
  first.source = second.source
    ∧ first.showNotation = second.showNotation

/-- No answer looks at the history, and no step lets it into the rest of
the session. -/
theorem Alike.take {first second : Session σ} (h : Alike first second)
    (line : String) :
    (first.take line).1 = (second.take line).1
      ∧ Alike (first.take line).2 (second.take line).2 := by
  obtain ⟨hsource, hshow⟩ := h
  unfold Session.take
  cases turnOf line with
  | skip => exact ⟨rfl, hsource, hshow⟩
  | clear => exact ⟨rfl, hsource, hshow⟩
  | reject rejection => exact ⟨rfl, hsource, hshow⟩
  | roll labeled =>
      have hrolling : first.rollLabeled labeled
          = second.rollLabeled labeled := by
        unfold rollLabeled
        rw [hsource, hshow]
      rw [apply_roll, apply_roll, hrolling]
      exact ⟨rfl, rfl, hshow⟩

/-- Whether the line was no roll: skipped, rejected or a clear. -/
def isStill (answer : Answer) : Bool :=
  isQuiet answer || isClear answer

/-- A line that was no roll leaves all but the history as it was. -/
theorem alike_of_still {session : Session σ} {line : String}
    (h : isStill (session.take line).1 = true) :
    Alike (session.take line).2 session := by
  rcases Bool.or_eq_true_iff.1 h with hquiet | hclear
  · rw [take_of_quiet hquiet]
    exact ⟨rfl, rfl⟩
  · rw [take_of_clear hclear]
    exact ⟨rfl, rfl⟩

/-- A run without some lines that were no rolls answers the other lines
as before and leaves the source in the same state. The sessions of the
two runs are alike at each line that both take. -/
theorem run_of_thinned_still {session other : Session σ}
    {lines : List String} {kept : List (String × Answer)}
    (h : Thinned isStill (session.steps lines) kept)
    (halike : Alike session other) :
    (other.run (kept.map Prod.fst)).1 = kept.map Prod.snd
      ∧ Alike (session.run lines).2 (other.run (kept.map Prod.fst)).2 := by
  induction lines generalizing session other kept with
  | nil =>
      cases h
      exact ⟨rfl, halike⟩
  | cons line lines ih =>
      rw [steps_cons] at h
      cases h with
      | keep _ rest =>
          obtain ⟨hanswer, hnext⟩ := halike.take line
          obtain ⟨hanswers, hlast⟩ := ih rest hnext
          simp only [List.map_cons, run_cons]
          rw [hanswers, ← hanswer]
          exact ⟨rfl, hlast⟩
      | drop _ hstill rest =>
          obtain ⟨hsource, hshow⟩ := alike_of_still hstill
          obtain ⟨hsource', hshow'⟩ := halike
          exact ih rest ⟨hsource.trans hsource', hshow.trans hshow'⟩

/-- No roll is left out with the steps that are no rolls. -/
theorem filterMap_rolled_of_thinned {steps kept : List (String × Answer)}
    (h : Thinned isStill steps kept) :
    (kept.map Prod.snd).filterMap rolled?
      = (steps.map Prod.snd).filterMap rolled? := by
  induction h with
  | nil => rfl
  | keep step _ ih =>
      rw [List.map_cons, List.map_cons, List.filterMap_cons,
        List.filterMap_cons, ih]
  | @drop steps kept line answer hstill _ ih =>
      have hnone : rolled? answer = none := by
        match answer, hstill with
        | .error _, _ => rfl
        | .ok .skipped, _ => rfl
        | .ok .cleared, _ => rfl
      rw [List.map_cons, List.filterMap_cons, hnone, ih]

-- ============================================================= the law

/-- The session behind the first so many lines of a run. -/
def after (session : Session σ) (lines : List String) (n : Nat) :
    Session σ :=
  (session.run (lines.take n)).2

/-- Each answer of a run is the answer of the session behind the lines
before, and leads to the session behind one line more. -/
theorem exists_take_of_answer {session : Session σ}
    {lines : List String} {n : Nat} {answer : Answer}
    (h : (session.run lines).1[n]? = some answer) :
    ∃ line, (session.after lines n).take line
      = (answer, session.after lines (n + 1)) := by
  induction lines generalizing session n with
  | nil => cases h
  | cons line lines ih =>
      cases n with
      | zero =>
          injection h with h
          refine ⟨line, ?_⟩
          rw [← h]
          rfl
      | succ n =>
          have htail : ((session.take line).2.run lines).1[n]?
              = some answer := h
          obtain ⟨next, hnext⟩ := ih htail
          exact ⟨next, hnext⟩

/-- A line of a run that was skipped or rejected has left the session as
it was. -/
theorem after_of_quiet {session : Session σ} {lines : List String}
    {n : Nat} {answer : Answer}
    (h : (session.run lines).1[n]? = some answer)
    (hquiet : isQuiet answer = true) :
    session.after lines (n + 1) = session.after lines n := by
  obtain ⟨line, htake⟩ := exists_take_of_answer h
  have hanswer : ((session.after lines n).take line).1 = answer := by
    rw [htake]
  rw [← hanswer] at hquiet
  have hkept := take_of_quiet hquiet
  rw [htake] at hkept
  exact hkept

/-- A clear of a run has dropped the history and nothing else. -/
theorem after_of_clear {session : Session σ} {lines : List String}
    {n : Nat} {answer : Answer}
    (h : (session.run lines).1[n]? = some answer)
    (hclear : isClear answer = true) :
    session.after lines (n + 1)
      = { session.after lines n with history := [] } := by
  obtain ⟨line, htake⟩ := exists_take_of_answer h
  have hanswer : ((session.after lines n).take line).1 = answer := by
    rw [htake]
  rw [← hanswer] at hclear
  have hdropped := take_of_clear hclear
  rw [htake] at hdropped
  exact hdropped

/-- The law of whole runs. After each line the history is what the
answers so far have shown; a line that was skipped or rejected has
changed neither history nor source, and a clear only the history. So
lines that were skipped or rejected can be left out without a trace, and
clears without a trace in the rolls and the source. -/
theorem run_law (source : σ) (showNotation : Bool)
    (lines : List String) :
    (∀ n, ((new source showNotation).after lines n).history
      = shown (((new source showNotation).run lines).1.take n))
    ∧ (∀ n answer,
      ((new source showNotation).run lines).1[n]? = some answer →
      isQuiet answer = true →
      (new source showNotation).after lines (n + 1)
        = (new source showNotation).after lines n)
    ∧ (∀ n answer,
      ((new source showNotation).run lines).1[n]? = some answer →
      isClear answer = true →
      ((new source showNotation).after lines (n + 1)).history = []
        ∧ ((new source showNotation).after lines (n + 1)).source
          = ((new source showNotation).after lines n).source)
    ∧ (∀ kept,
      Thinned isQuiet ((new source showNotation).steps lines) kept →
      (new source showNotation).run (kept.map Prod.fst)
        = (kept.map Prod.snd, ((new source showNotation).run lines).2))
    ∧ (∀ kept,
      Thinned isStill ((new source showNotation).steps lines) kept →
      ((new source showNotation).run (kept.map Prod.fst)).1
          = kept.map Prod.snd
        ∧ (kept.map Prod.snd).filterMap rolled?
          = ((new source showNotation).run lines).1.filterMap rolled?
        ∧ ((new source showNotation).run (kept.map Prod.fst)).2.source
          = ((new source showNotation).run lines).2.source) := by
  refine ⟨?_, ?_, ?_, fun kept h => run_of_thinned_quiet h, ?_⟩
  · intro n
    rw [← run_take]
    exact history_run source showNotation (lines.take n)
  · intro n answer hanswer hquiet
    exact after_of_quiet hanswer hquiet
  · intro n answer hanswer hclear
    rw [after_of_clear hanswer hclear]
    exact ⟨rfl, rfl⟩
  · intro kept h
    obtain ⟨hanswers, hsource, -⟩ := run_of_thinned_still h ⟨rfl, rfl⟩
    refine ⟨hanswers, ?_, hsource.symm⟩
    rw [filterMap_rolled_of_thinned h, map_snd_steps]

end DiceNotation.Session
