/-
Where the path of the configuration stands among the arguments. The pair
that announces it is looked for from the front, and taking it out leaves
the arguments before it and those behind it as they were; so the pair
may stand between any two lines (`path_announced_anywhere`).

The path is whatever follows the first announcement, even another one:
an argument is only looked at until the pair is found. That is why the
lines must not hold an announcement of their own, and why nothing is
asked of the path.

Without a line among them the arguments leave the program to standard
input, and that too does not hang on the pair, since it is asked of what
is left without it.
-/
import DiceNotation.Proofs.Terminal.Run

namespace DiceNotation

namespace Arguments

-- =========================================================== the search

/-- An argument that is no announcement is a line. -/
theorem ofList_cons_of_ne {line : String} (h : line ≠ configFlag)
    (rest : List String) :
    ofList (line :: rest)
      = { ofList rest with lines := line :: (ofList rest).lines } := by
  rw [ofList.eq_def]
  exact if_neg h

/-- Arguments in front of an announcement are lines, and what follows
them is taken as it would be without them. -/
theorem ofList_append {front : List String} (h : configFlag ∉ front)
    (rest : List String) :
    ofList (front ++ rest)
      = { ofList rest with lines := front ++ (ofList rest).lines } := by
  induction front with
  | nil => rfl
  | cons line front ih =>
      obtain ⟨hline, hfront⟩ := List.ne_and_not_mem_of_not_mem_cons h
      rw [List.cons_append, ofList_cons_of_ne (Ne.symm hline), ih hfront]
      rfl

/-- Lines with the path announced behind the first so many of them. -/
def announcedBehind (count : Nat) (path : String) (lines : List String) :
    List String :=
  lines.take count ++ configFlag :: path :: lines.drop count

theorem ofList_announcedBehind {lines : List String}
    (h : configFlag ∉ lines) (count : Nat) (path : String) :
    ofList (announcedBehind count path lines)
      = ⟨some path, lines, false⟩ := by
  have hfront : configFlag ∉ lines.take count :=
    fun hmem => h (List.mem_of_mem_take hmem)
  have hpair : ofList (configFlag :: path :: lines.drop count)
      = ⟨some path, lines.drop count, false⟩ := by
    rw [ofList, if_pos rfl]
  rw [announcedBehind, ofList_append hfront, hpair,
    List.take_append_drop]

/-- An announcement without a path behind it announces nothing. -/
theorem ofList_announcement_last {lines : List String}
    (h : configFlag ∉ lines) :
    ofList (lines ++ [configFlag]) = ⟨none, lines, true⟩ := by
  have hlast : ofList [configFlag] = ⟨none, [], true⟩ := by
    rw [ofList, if_pos rfl]
  rw [ofList_append h, hlast, List.append_nil]

theorem ofList_lines {lines : List String} (h : configFlag ∉ lines) :
    ofList lines = ⟨none, lines, false⟩ := by
  have hlines := ofList_append h []
  rwa [List.append_nil, ofList, List.append_nil] at hlines

end Arguments

namespace Terminal

open Arguments

-- ============================================================== the run

/-- A run with an announced path is that of its lines, or of standard
input where it has none, under the configuration of the path. -/
theorem run_announcedBehind {lines : List String}
    (h : configFlag ∉ lines) (count : Nat) (path : String)
    (named : Option String) (file : String → Config.File)
    (stdin : ByteArray) (unseeded : Xoshiro) :
    run (announcedBehind count path lines) named file stdin unseeded
      = runLines (sessionOf (Config.load (file path)) unseeded)
        (if lines = [] then linesOf stdin else lines.map some) := by
  unfold run
  rw [ofList_announcedBehind h]
  simp only [configOf, Option.some_or, List.isEmpty_iff, runArguments_eq]
  exact (apply_ite _ _ _ _).symm

/-- The path of the configuration may be announced anywhere. Among lines
that announce none, at any place, an announcement and any path are taken
out, and the lines are left in their order; an announcement behind all
lines gives no path and leaves them; and lines alone are left as they
are. So a run whose configuration has a seed ends alike wherever the
path is announced, whatever the environment names: as the run of the
lines, or of standard input where there are none. -/
theorem path_announced_anywhere {lines : List String}
    (h : configFlag ∉ lines) :
    (∀ count path, ofList (announcedBehind count path lines)
        = ⟨some path, lines, false⟩)
      ∧ ofList (lines ++ [configFlag]) = ⟨none, lines, true⟩
      ∧ ofList lines = ⟨none, lines, false⟩
      ∧ ∀ (path : String) (file : String → Config.File),
        (Config.load (file path)).seed.isSome = true →
        ∀ (stdin : ByteArray) (count count' : Nat)
          (named named' : Option String) (unseeded unseeded' : Xoshiro),
          (run (announcedBehind count path lines) named file stdin
              unseeded).ending
            = (runLines (sessionOf (Config.load (file path)) unseeded')
                (if lines = [] then linesOf stdin
                  else lines.map some)).ending
          ∧ (run (announcedBehind count path lines) named file stdin
              unseeded).ending
            = (run (announcedBehind count' path lines) named' file stdin
              unseeded').ending := by
  refine ⟨ofList_announcedBehind h, ofList_announcement_last h,
    ofList_lines h, ?_⟩
  intro path file hseed stdin count count' named named' unseeded unseeded'
  rw [run_announcedBehind h, run_announcedBehind h,
    sessionOf_of_seed hseed unseeded unseeded']
  exact ⟨rfl, rfl⟩

/-- A file of the name of the announcement itself, announced between two
lines and in front of them. -/
theorem flag_announced_between :
    configFlag ∉ ["2d6", "d4"]
    ∧ (Config.load (.content "seed = 7".toUTF8)).seed.isSome = true
    ∧ (run ["2d6", "--config", "--config", "d4"] none
        (fun _ => .content "seed = 7".toUTF8) .empty ⟨0, 0, 0, 0⟩).ending
      = (run ["--config", "--config", "2d6", "d4"] (some "other.toml")
        (fun _ => .content "seed = 7".toUTF8) .empty
        ⟨1, 1, 1, 1⟩).ending := by
  have hlines : configFlag ∉ ["2d6", "d4"] := by decide
  have hseed : (Config.load (.content "seed = 7".toUTF8)).seed.isSome
      = true := by
    decide +kernel
  refine ⟨hlines, hseed, ?_⟩
  exact ((path_announced_anywhere hlines).2.2.2 "--config"
    (fun _ => .content "seed = 7".toUTF8) hseed .empty 1 0 none
    (some "other.toml") ⟨0, 0, 0, 0⟩ ⟨1, 1, 1, 1⟩).2

end Terminal

end DiceNotation
