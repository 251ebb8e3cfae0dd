/-
Outcomes: what a die shows once rolled. An outcome has the shape of its
die; each group shows its faces, in the order they were drawn, and its
bonus, and every part carries its total. Totals are stored, so that an
outcome taken from elsewhere keeps the totals it came with, whether they
are sums or not; the two builders are the ones that add up.
-/
import DiceNotation.Word

namespace DiceNotation

-- ============================================================ the type

/-- What a die shows. -/
inductive Outcome where
  | group (faces : List UInt32) (bonus : Int32) (total : Int64)
  | join (left right : Outcome) (total : Int64)
deriving DecidableEq

namespace Outcome

/-- The total of an outcome. -/
def total : Outcome → Int64
  | .group _ _ total => total
  | .join _ _ total => total

-- ============================================================ builders

/-- The sum of faces. -/
def sumFaces (faces : List UInt32) : Int64 :=
  faces.foldl (fun sum face => sum + Word.widen face) 0

/-- The outcome of a group: its total is the sum of the faces and the
bonus. -/
def ofFaces (faces : List UInt32) (bonus : Int32) : Outcome :=
  .group faces bonus (sumFaces faces + bonus.toInt64)

/-- The outcome of joined dice: its total is the sum of their totals. -/
def ofSides (left right : Outcome) : Outcome :=
  .join left right (left.total + right.total)

-- ============================================================ the faces

/-- The faces of an outcome, left to right, in front of further ones. -/
def facesOnto : Outcome → List UInt32 → List UInt32
  | .group faces _ _, rest => faces ++ rest
  | .join left right _, rest => left.facesOnto (right.facesOnto rest)

/-- The faces of an outcome, left to right. -/
def faces (outcome : Outcome) : List UInt32 := outcome.facesOnto []

/-- Further faces stand behind those of the outcome. -/
theorem facesOnto_eq (outcome : Outcome) (rest : List UInt32) :
    outcome.facesOnto rest = outcome.faces ++ rest := by
  unfold faces
  induction outcome generalizing rest with
  | group => simp [facesOnto]
  | join left right total ihl ihr =>
      simp only [facesOnto]
      rw [ihl, ihl (right.facesOnto []), ihr rest, List.append_assoc]

@[simp] theorem faces_group (fs : List UInt32) (bonus : Int32)
    (total : Int64) : (Outcome.group fs bonus total).faces = fs := by
  simp [faces, facesOnto]

@[simp] theorem faces_join (left right : Outcome) (total : Int64) :
    (Outcome.join left right total).faces = left.faces ++ right.faces := by
  show left.facesOnto right.faces = _
  rw [facesOnto_eq]

end Outcome

end DiceNotation
