/-
Dice rolled in order. Every die gives one outcome, in its place, and the
next die goes on with the source that it leaves; so to roll dice and
then more dice is to roll them all.

While it rolls, the program keeps the outcomes in reverse. That is said
here once (`rollOnto_eq`), and nothing later depends on it.

A text is rolled if all of it can be read. `rollText_of_ok` and
`rollText_of_error` are the two ways it can go, and in the second no
word is taken from the source.
-/
import DiceNotation.Roll

namespace DiceNotation.Rolls

variable {σ : Type} [WordSource σ]

-- ======================================================== dice in order

theorem rollOnto_eq (dice : List Die) (source : σ)
    (rolled : List Outcome) :
    rollOnto dice source rolled
      = (rolled.reverse ++ (roll dice source).1, (roll dice source).2) := by
  unfold roll
  induction dice generalizing source rolled with
  | nil => simp [rollOnto]
  | cons die dice ih =>
      simp only [rollOnto]
      rw [ih, ih _ [_]]
      simp

@[simp] theorem roll_nil (source : σ) : roll [] source = ([], source) :=
  rfl

@[simp] theorem roll_cons (die : Die) (dice : List Die) (source : σ) :
    roll (die :: dice) source
      = ((die.roll source).1 :: (roll dice (die.roll source).2).1,
          (roll dice (die.roll source).2).2) := by
  show rollOnto dice (die.roll source).2 [(die.roll source).1] = _
  rw [rollOnto_eq]
  rfl

/-- To roll dice and then more dice is to roll them all. -/
theorem roll_append (first second : List Die) (source : σ) :
    roll (first ++ second) source
      = ((roll first source).1 ++ (roll second (roll first source).2).1,
          (roll second (roll first source).2).2) := by
  induction first generalizing source with
  | nil => rfl
  | cons die first ih =>
      rw [List.cons_append, roll_cons, ih, roll_cons, List.cons_append]

theorem length_roll (dice : List Die) (source : σ) :
    (roll dice source).1.length = dice.length := by
  induction dice generalizing source with
  | nil => rfl
  | cons die dice ih =>
      rw [roll_cons, List.length_cons, List.length_cons, ih]

-- ================================================================ texts

theorem rollText_of_ok {input : String} {dice : List Die}
    (h : parse input = .ok dice) (source : σ) :
    rollText input source
      = (.ok (roll dice source).1, (roll dice source).2) := by
  unfold rollText
  rw [h]

theorem rollText_of_error {input : String} {rejection : Rejection}
    (h : parse input = .error rejection) (source : σ) :
    rollText input source = (.error rejection, source) := by
  unfold rollText
  rw [h]

/-- A text that was rolled was read, and its dice were rolled. -/
theorem exists_parse_of_rollText {input : String} {source last : σ}
    {outcomes : List Outcome}
    (h : rollText input source = (.ok outcomes, last)) :
    ∃ dice, parse input = .ok dice
      ∧ roll dice source = (outcomes, last) := by
  cases hparse : parse input with
  | error rejection =>
      rw [rollText_of_error hparse] at h
      cases h
  | ok dice =>
      rw [rollText_of_ok hparse] at h
      cases h
      exact ⟨dice, rfl, rfl⟩

end DiceNotation.Rolls
