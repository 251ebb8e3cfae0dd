/-
Runs of the terminal program. Whichever way lines come in, one session
takes them in order; so a run is settled by the session it starts with
and by the lines it is given (`runLines_append`), and lines that are the
same once they are trimmed are the same lines (`runLines_congr`).

# The two ways in

Arguments and standard input are read by different code: an argument is
a line as it stands, while standard input is cut at line feeds and loses
a carriage return in front of each. The loss does not matter, since it
is a blank at the end of a line, and so the same lines give the same
run, provided that both start with the same seed.

# A line that cannot be read

The session has taken all lines before such a line, and takes none
behind it. What is behind it is therefore free: the run is the same for
any other input whose readable lines are the same up to there.
-/
import DiceNotation.Proofs.Session.Run
import DiceNotation.Proofs.Terminal.Input

namespace DiceNotation.Terminal

-- ======================================================= what is written

@[simp] theorem Output.empty_append (output : Output) :
    Output.empty.append output = output := rfl

@[simp] theorem Output.append_empty (output : Output) :
    output.append .empty = output := by
  unfold Output.append Output.empty
  rw [List.append_nil, List.append_nil]

theorem Output.append_assoc (first second third : Output) :
    (first.append second).append third
      = first.append (second.append third) := by
  unfold Output.append
  rw [List.append_assoc, List.append_assoc]

section Sessions

variable {σ : Type} [WordSource σ]

/-- What is written when a session takes lines. -/
def answered (session : Session σ) (texts : List String) : Output :=
  ((session.run texts).1.map outputOf).foldr Output.append .empty

theorem answered_cons (session : Session σ) (text : String)
    (texts : List String) :
    answered session (text :: texts)
      = (outputOf (session.take text).1).append
        (answered (session.take text).2 texts) := rfl

theorem runLines_cons (session : Session σ) (text : String)
    (others : List (Option String)) :
    runLines session (some text :: others)
      = (outputOf (session.take text).1).append
        (runLines (session.take text).2 others) := rfl

/-- Lines that can be read are taken in order, and the session they
leave takes what follows. -/
theorem runLines_append (session : Session σ) (texts : List String)
    (others : List (Option String)) :
    runLines session (texts.map some ++ others)
      = (answered session texts).append
        (runLines (session.run texts).2 others) := by
  induction texts generalizing session with
  | nil => rfl
  | cons text texts ih =>
      rw [List.map_cons, List.cons_append, runLines_cons, ih,
        answered_cons, Output.append_assoc]
      rfl

/-- A line that cannot be read ends the run. -/
theorem runLines_unreadable (session : Session σ) (texts : List String)
    (others : List (Option String)) :
    runLines session (texts.map some ++ none :: others)
      = (answered session texts).append unreadable := by
  rw [runLines_append, runLines]

/-- If all lines can be read, the session takes all of them. -/
theorem runLines_readable (session : Session σ) (texts : List String) :
    runLines session (texts.map some) = answered session texts := by
  have hrun := runLines_append session texts []
  rwa [List.append_nil, runLines, Output.append_empty] at hrun

/-- The lines of arguments are lines that can be read. The loop over
arguments does with them what the loop over standard input does. -/
theorem runArguments_eq (session : Session σ) (lines : List String) :
    runArguments session lines = runLines session (lines.map some) := by
  induction lines generalizing session with
  | nil => rfl
  | cons line lines ih =>
      rw [List.map_cons, runLines_cons, ← ih]
      rfl

/-- Blanks around a line do not matter to a session. -/
theorem take_congr (session : Session σ) {line other : String}
    (h : Text.trim line.toList = Text.trim other.toList) :
    session.take line = session.take other := by
  unfold Session.take Session.turnOf
  rw [h]

/-- Nor do they matter to a run: lines may lose the carriage return that
they end in. -/
theorem runLines_withoutReturn (session : Session σ)
    (lines : List String) :
    runLines session (lines.map fun line =>
        some (String.ofList (withoutReturn line.toList)))
      = runLines session (lines.map some) := by
  induction lines generalizing session with
  | nil => rfl
  | cons line lines ih =>
      have htrim : Text.trim
            (String.ofList (withoutReturn line.toList)).toList
          = Text.trim line.toList := by
        rw [String.toList_ofList]
        exact trim_withoutReturn line.toList
      rw [List.map_cons, List.map_cons, runLines_cons, runLines_cons,
        take_congr session htrim, ih]

end Sessions

-- ============================================================= arguments

/-- The arguments that announce a path, if there is one. -/
def announcing : Option String → List String
  | none => []
  | some path => [Arguments.configFlag, path]

/-- Behind an announced path all arguments are lines; so are arguments
that announce none. -/
theorem ofList_announcing (path : Option String) (lines : List String)
    (h : ∀ line ∈ lines, line ≠ Arguments.configFlag) :
    Arguments.ofList (announcing path ++ lines) = ⟨path, lines, false⟩ := by
  cases path with
  | some path =>
      show Arguments.ofList (Arguments.configFlag :: path :: lines) = _
      unfold Arguments.ofList
      rw [if_pos rfl]
  | none =>
      show Arguments.ofList lines = _
      induction lines with
      | nil => rfl
      | cons line lines ih =>
          obtain ⟨hline, hlines⟩ := List.forall_mem_cons.1 h
          unfold Arguments.ofList
          rw [if_neg hline, ih hlines]

/-- Without lines among its arguments the program reads standard
input. -/
theorem run_announcing (path named : Option String)
    (file : String → Config.File) (stdin : ByteArray)
    (unseeded : Xoshiro) :
    run (announcing path) named file stdin unseeded
      = runLines (sessionOf
          (configOf (.ofList (announcing path)) named file) unseeded)
        (linesOf stdin) := by
  have harguments : Arguments.ofList (announcing path)
      = ⟨path, [], false⟩ := by
    have h := ofList_announcing path [] (by simp)
    rwa [List.append_nil] at h
  unfold run
  rw [harguments]
  rfl

/-- With lines among its arguments it takes these. -/
theorem run_announcing_append (path named : Option String)
    (file : String → Config.File) {lines : List String}
    (hsome : lines ≠ [])
    (h : ∀ line ∈ lines, line ≠ Arguments.configFlag) (stdin : ByteArray)
    (unseeded : Xoshiro) :
    run (announcing path ++ lines) named file stdin unseeded
      = runLines (sessionOf
          (configOf (.ofList (announcing path)) named file) unseeded)
        (lines.map some) := by
  have harguments := ofList_announcing path lines h
  have halone := ofList_announcing path [] (by simp)
  rw [List.append_nil] at halone
  have hnonempty : lines.isEmpty = false := by simpa using hsome
  rw [← runArguments_eq]
  unfold run
  simp only [harguments, halone, hnonempty]
  rfl

/-- A seed leaves nothing to the state that stands in for one. -/
theorem sessionOf_of_seed {config : Config} (h : config.seed.isSome = true)
    (unseeded other : Xoshiro) :
    sessionOf config unseeded = sessionOf config other := by
  obtain ⟨seed, hseed⟩ := Option.isSome_iff_exists.1 h
  unfold sessionOf
  rw [hseed]

-- ================================================================ the law

/-- Lines can be read up to some point, which may be their end. -/
theorem exists_readable (lines : List (Option String)) :
    ∃ texts : List String, lines = texts.map some
      ∨ ∃ others, lines = texts.map some ++ none :: others := by
  induction lines with
  | nil => exact ⟨[], .inl rfl⟩
  | cons line lines ih =>
      cases line with
      | none => exact ⟨[], .inr ⟨lines, rfl⟩⟩
      | some text =>
          obtain ⟨texts, rfl | ⟨others, rfl⟩⟩ := ih
          · exact ⟨text :: texts, .inl rfl⟩
          · exact ⟨text :: texts, .inr ⟨others, rfl⟩⟩

/-- The two ways in agree. With a seed, arguments that are lines give
the run that standard input gives when it has them as lines; whatever
standard input is there beside the arguments does not matter. And a run
on any standard input is that of the session on all of its lines, or on
those before the first one that cannot be read, the error of which ends
it whatever follows. -/
theorem input_modes_agree (path named : Option String)
    (file : String → Config.File) :
    ((configOf (.ofList (announcing path)) named file).seed.isSome = true →
      ∀ lines : List String, lines ≠ [] →
      (∀ line ∈ lines, '\n' ∉ line.toList ∧ line ≠ Arguments.configFlag) →
      ∀ (stdin : ByteArray) (unseeded unseeded' : Xoshiro),
        run (announcing path ++ lines) named file stdin unseeded
          = run (announcing path) named file
            (Output.textOf lines).toUTF8 unseeded')
    ∧ ∀ (stdin : ByteArray) (unseeded : Xoshiro),
      (∃ texts : List String,
        Lines stdin.toList (texts.map some)
        ∧ run (announcing path) named file stdin unseeded
          = answered (sessionOf
              (configOf (.ofList (announcing path)) named file) unseeded)
            texts)
      ∨ ∃ (texts : List String) (others : List (Option String)),
        Lines stdin.toList (texts.map some ++ none :: others)
        ∧ run (announcing path) named file stdin unseeded
          = (answered (sessionOf
              (configOf (.ofList (announcing path)) named file) unseeded)
            texts).append unreadable
        ∧ ∀ (stdin' : ByteArray) (others' : List (Option String)),
          Lines stdin'.toList (texts.map some ++ none :: others') →
          run (announcing path) named file stdin' unseeded
            = run (announcing path) named file stdin unseeded := by
  constructor
  · intro hseed lines hsome hlines stdin unseeded unseeded'
    have hflag : ∀ line ∈ lines, line ≠ Arguments.configFlag :=
      fun line hline => (hlines line hline).2
    have hread := (lines_iff _ _).1
      (lines_textOf fun line hline => (hlines line hline).1)
    rw [run_announcing_append path named file hsome hflag, run_announcing,
      hread, runLines_withoutReturn,
      sessionOf_of_seed hseed unseeded unseeded']
  · intro stdin unseeded
    obtain ⟨lines, hlines⟩ := exists_lines stdin.toList
    obtain ⟨texts, rfl | ⟨others, rfl⟩⟩ := exists_readable lines
    · refine .inl ⟨texts, hlines, ?_⟩
      rw [run_announcing, (lines_iff _ _).1 hlines, runLines_readable]
    · have hrun : ∀ (stdin : ByteArray) (others : List (Option String)),
          Lines stdin.toList (texts.map some ++ none :: others) →
          run (announcing path) named file stdin unseeded
            = (answered (sessionOf
                (configOf (.ofList (announcing path)) named file) unseeded)
              texts).append unreadable := by
        intro stdin others h
        rw [run_announcing, (lines_iff _ _).1 h, runLines_unreadable]
      refine .inr ⟨texts, others, hlines, hrun stdin others hlines, ?_⟩
      intro stdin' others' hother
      rw [hrun stdin' others' hother, hrun stdin others hlines]

/-- Under the seed 7 two lines, one of them no notation, are the same as
arguments and as standard input. -/
theorem arguments_agree_seven :
    ((configOf (.ofList (announcing none)) (some "dice.toml")
        fun _ => .content "seed = 7".toUTF8).seed.isSome = true)
    ∧ run ["2d6", "two"] (some "dice.toml")
        (fun _ => .content "seed = 7".toUTF8) .empty ⟨0, 0, 0, 0⟩
      = run [] (some "dice.toml") (fun _ => .content "seed = 7".toUTF8)
        "2d6\ntwo\n".toUTF8 ⟨1, 1, 1, 1⟩ := by
  have hseed : (configOf (.ofList (announcing none)) (some "dice.toml")
      fun _ => .content "seed = 7".toUTF8).seed.isSome = true := by
    decide +kernel
  refine ⟨hseed, ?_⟩
  exact (input_modes_agree none (some "dice.toml")
    fun _ => .content "seed = 7".toUTF8).1 hseed ["2d6", "two"]
    (by decide) (by decide) .empty ⟨0, 0, 0, 0⟩ ⟨1, 1, 1, 1⟩

end DiceNotation.Terminal
