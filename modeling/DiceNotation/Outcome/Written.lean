/-
Outcomes as text, in two forms. The written form is for the reader of a
session: the faces of each group in brackets, its bonus if there is one,
ampersands between joined groups, and the total of the whole at the end.
The detailed form is for a log and shows every part with its name, inner
totals included.
-/
import DiceNotation.Die.Notation
import DiceNotation.Outcome

namespace DiceNotation.Outcome

-- ======================================================== written form

/-- Faces between brackets. -/
def writtenFaces (faces : List UInt32) : List Char :=
  '[' :: List.intercalate [',', ' ']
    (faces.map fun face => Decimal.ofNat face.toNat) ++ [']']

/-- The faces and the bonus of a group. -/
def writtenGroup (faces : List UInt32) (bonus : Int32) : List Char :=
  if bonus = 0 then writtenFaces faces
  else writtenFaces faces ++ ' ' :: writtenBonus bonus

/-- The groups of an outcome, in front of a further text. -/
def writtenOnto : Outcome → List Char → List Char
  | .group faces bonus _, rest => writtenGroup faces bonus ++ rest
  | .join left right _, rest =>
      left.writtenOnto (Die.joint ++ right.writtenOnto rest)

/-- An outcome as text: its groups, then its total. -/
def written (outcome : Outcome) : List Char :=
  outcome.writtenOnto
    ([' ', '=', ' '] ++ Decimal.ofInt outcome.total.toInt)

/-- An outcome as a string. -/
def toString (outcome : Outcome) : String :=
  String.ofList outcome.written

/-- A further text stands behind the groups. -/
theorem writtenOnto_eq (outcome : Outcome) (rest : List Char) :
    outcome.writtenOnto rest = outcome.writtenOnto [] ++ rest := by
  induction outcome generalizing rest with
  | group => simp [writtenOnto]
  | join left right total ihl ihr =>
      simp only [writtenOnto]
      rw [ihl, ihl (Die.joint ++ right.writtenOnto []), ihr rest]
      simp only [List.append_assoc]

-- ======================================================= detailed form

/-- An integer as a string. -/
private def numeral (n : Int) : String :=
  String.ofList (Decimal.ofInt n)

/-- An outcome with the names of its parts. -/
def detail : Outcome → String
  | .group faces bonus total =>
      "Leaf \x7b rolls: " ++ String.ofList (writtenFaces faces)
        ++ ", bonus: " ++ numeral bonus.toInt
        ++ ", total: " ++ numeral total.toInt ++ " \x7d"
  | .join left right total =>
      "Combined \x7b left: " ++ left.detail ++ ", right: "
        ++ right.detail ++ ", total: " ++ numeral total.toInt ++ " \x7d"

end DiceNotation.Outcome
