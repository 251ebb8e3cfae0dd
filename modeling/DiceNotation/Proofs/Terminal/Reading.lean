/-
Standard input taken byte by byte. A run of the program has all of its
input, cut into lines; at a terminal the bytes come in one after another,
and each line must be answered before the next one is there. Both write
the same (`Reading.run_new_eq`), so what holds of runs holds of the
program as a person meets it.

# The line that has begun

All that a reading keeps of its input is the line that has begun, the
last byte first. Bytes without a line feed only make it longer
(`run_append`); so behind the bytes of a line it holds that line, and the
line feed, or the end, hands it to the session. The rest is induction on
the lines of the input.

# What is written to a line

`Written` says in terms of the line itself what it is answered with, and
on which stream; `handle_written` says that the program writes this and
nothing else to one line, and `run_written` that it does so through a
whole run, each line with the session that the lines before have left.
-/
import DiceNotation.Proofs.Session.Line
import DiceNotation.Proofs.Terminal.Run

namespace DiceNotation.Terminal

variable {σ : Type} [WordSource σ]

-- ======================================================= byte by byte

namespace Reading

theorem take_of_ne {byte : UInt8} (h : byte ≠ 10) (reading : Reading σ) :
    reading.take byte
      = (.empty, some ⟨reading.session, byte :: reading.begun⟩) := by
  unfold take
  rw [if_neg h]

/-- Bytes of a line are put to the line that has begun. -/
theorem run_append {line : List UInt8} (h : 10 ∉ line)
    (reading : Reading σ) (rest : List UInt8) :
    reading.run (line ++ rest)
      = run ⟨reading.session, line.reverse ++ reading.begun⟩ rest := by
  induction line generalizing reading with
  | nil => rfl
  | cons byte line ih =>
      obtain ⟨hbyte, hline⟩ := List.ne_and_not_mem_of_not_mem_cons h
      rw [List.cons_append, run, take_of_ne (Ne.symm hbyte)]
      simp only [Output.empty_append]
      rw [ih hline, List.reverse_cons, List.append_assoc]
      rfl

end Reading

/-- Bytes that come in one after another are written to as their lines
are. -/
theorem Lines.run_new {bytes : List UInt8} {lines : List (Option String)}
    (h : Lines bytes lines) (session : Session σ) :
    (Reading.new session).run bytes = runLines session lines := by
  induction h generalizing session with
  | none => rfl
  | @last line some noFeed =>
      have hrun := Reading.run_append noFeed (.new session) []
      have hbegun : line.reverse.isEmpty = false := by simpa using some
      rw [List.append_nil] at hrun
      rw [hrun]
      simp only [Reading.new, List.append_nil, Reading.run, Reading.finish,
        hbegun, List.reverse_reverse]
      unfold Reading.endLine
      cases decode line with
      | none => rfl
      | some text => exact (Output.append_empty _).symm
  | @more line rest lines noFeed _ ih =>
      rw [Reading.run_append noFeed]
      simp only [Reading.new, List.append_nil, Reading.run, Reading.take,
        if_true, List.reverse_reverse]
      unfold Reading.endLine
      cases decode (dropReturn line) with
      | none => rfl
      | some text => exact congrArg (Output.append _) (ih _)

/-- Standard input that comes in byte by byte is written to as its lines
are. -/
theorem Reading.run_new_eq (session : Session σ) (stdin : ByteArray) :
    (Reading.new session).run stdin.toList
      = runLines session (linesOf stdin) :=
  ((lines_iff _ _).2 rfl).run_new session

/-- A run without lines among its arguments is what the program writes as
standard input comes in. -/
theorem run_eq_reading {arguments : List String}
    (h : (Arguments.ofList arguments).lines = []) (named : Option String)
    (file : String → Config.File) (stdin : ByteArray)
    (unseeded : Xoshiro) :
    run arguments named file stdin unseeded
      = (Reading.new (sessionOf
          (configOf (.ofList arguments) named file) unseeded)).run
            stdin.toList := by
  rw [Reading.run_new_eq]
  unfold run
  simp only [h]
  rfl

-- ======================================================= what is written

/-- What is written to a line: nothing to one that is blank or a clear;
else, of the text of its rolls, the label if there is one and a line for
each outcome on standard output, or the text itself in an error. -/
inductive Written (session : Session σ) (line : String) : Output → Prop
  | nothing (quiet : Text.trim line.toList = []
      ∨ (Text.trim line.toList).map Char.toLower = Session.clearWord) :
      Written session line ⟨[], []⟩
  | rolled {label : Option String} {rolls : String} {dice : List Die}
      (blank : Text.trim line.toList ≠ [])
      (clear : (Text.trim line.toList).map Char.toLower
        ≠ Session.clearWord)
      (parts : LabeledLine.Parts (Text.trim line.toList) label rolls)
      (read : Rolls.parse rolls = .ok dice) :
      Written session line
        ⟨label.toList
          ++ dice.zipWith (Session.resultLine session.showNotation label)
            (Rolls.roll dice session.source).1, []⟩
  | rejected {label : Option String} {rolls : String}
      {rejection : Rejection}
      (blank : Text.trim line.toList ≠ [])
      (clear : (Text.trim line.toList).map Char.toLower
        ≠ Session.clearWord)
      (parts : LabeledLine.Parts (Text.trim line.toList) label rolls)
      (read : Rolls.parse rolls = .error rejection) :
      Written session line
        ⟨[], [" ERROR jdice > Invalid dice expression: " ++ rolls]⟩

/-- The error that is written to a rejection. -/
theorem outputOf_error {rolls : String} {rejection : Rejection}
    (h : Rolls.parse rolls = .error rejection) :
    outputOf (.error rejection)
      = ⟨[], [" ERROR jdice > Invalid dice expression: " ++ rolls]⟩ := by
  show Output.mk [] [Record.diagnostic "jdice" _] = _
  rw [Rolls.input_of_parse_eq_error h]
  unfold Record.diagnostic
  simp only [Record.Level.name, ← String.append_assoc]
  rfl

/-- The program writes to a line what is to be written to it. -/
theorem handle_written (session : Session σ) (line : String) :
    Written session line (handle session line).1 := by
  have hhandle : (handle session line).1
      = outputOf (session.apply (Session.turnOf line)).1 := rfl
  rw [hhandle]
  by_cases hblank : Text.trim line.toList = []
  · have hturn : Session.turnOf line = .skip := by
      unfold Session.turnOf
      simp [hblank]
    rw [hturn]
    exact .nothing (.inl hblank)
  by_cases hclear : (Text.trim line.toList).map Char.toLower
      = Session.clearWord
  · have hturn : Session.turnOf line = .clear := by
      unfold Session.turnOf
      simp [hblank, hclear]
    rw [hturn]
    exact .nothing (.inr hclear)
  obtain ⟨⟨label, rolls⟩, hsplit⟩ : ∃ parts,
      LabeledLine.split (String.ofList (Text.trim line.toList)) = parts :=
    ⟨_, rfl⟩
  have hparts := LabeledLine.parts_split
    (String.ofList (Text.trim line.toList))
  rw [String.toList_ofList, hsplit] at hparts
  rw [Session.turnOf_of_split hblank hclear hsplit]
  cases hread : Rolls.parse rolls with
  | error rejection =>
      show Written session line (outputOf (.error rejection))
      rw [outputOf_error hread]
      exact .rejected hblank hclear hparts hread
  | ok dice =>
      simp only [Session.apply_roll, Session.rollLabeled_eq]
      exact .rolled hblank hclear hparts hread

/-- What is written to lines, from a session on: to each what is to be
written to it, with the session that those before it have left, and to
one that cannot be read an error that ends the writing. -/
inductive WrittenThrough :
    Session σ → List (Option String) → Output → Prop
  | ended (session : Session σ) : WrittenThrough session [] ⟨[], []⟩
  | unreadable (session : Session σ) (lines : List (Option String)) :
      WrittenThrough session (none :: lines)
        ⟨[], [" ERROR jdice > unable to read input: "
          ++ "stream did not contain valid UTF-8"]⟩
  | line {session : Session σ} {line : String}
      {lines : List (Option String)} {first others : Output}
      (firstWritten : Written session line first)
      (othersWritten :
        WrittenThrough (session.take line).2 lines others) :
      WrittenThrough session (some line :: lines)
        ⟨first.stdout ++ others.stdout, first.stderr ++ others.stderr⟩

theorem runLines_written (session : Session σ)
    (lines : List (Option String)) :
    WrittenThrough session lines (runLines session lines) := by
  induction lines generalizing session with
  | nil => exact .ended session
  | cons line lines ih =>
      cases line with
      | none => exact .unreadable session lines
      | some text => exact .line (handle_written session text) (ih _)

/-- Every run writes what is to be written to the lines of its arguments
or, if it has none, of standard input. -/
theorem run_written (arguments : List String) (named : Option String)
    (file : String → Config.File) (stdin : ByteArray)
    (unseeded : Xoshiro) :
    WrittenThrough
      (sessionOf (configOf (.ofList arguments) named file) unseeded)
      (if (Arguments.ofList arguments).lines = [] then linesOf stdin
        else (Arguments.ofList arguments).lines.map some)
      (run arguments named file stdin unseeded) := by
  unfold run
  by_cases h : (Arguments.ofList arguments).lines = []
  · simp only [h, if_true, List.isEmpty_nil]
    exact runLines_written _ _
  · simp only [h, if_false, List.isEmpty_iff, runArguments_eq]
    exact runLines_written _ _

end DiceNotation.Terminal
