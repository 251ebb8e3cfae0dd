/-
Rolls come to their end and take no word too many. Nothing in the loop
that draws a face bounds it; on a finite list of words, with zeros
behind, it ends all the same, since every die uses the word zero. Words
passed over are words of the list, then, each in its own place, so a
roll takes at most one word for each die and one for each word of the
list. What stands behind the last word that it took plays no part.

# Rolls as loops

`Die.Evaluates` rolls a die over an endless row of words by the loops
themselves: dice one after the other, groups from left to right, each
draw as long as it takes. A roll has a result there only if all of its
draws end. The claim is first that it has one, and then that the program
comes to that very result, on the list and on every source that gives
the same words as far as the roll takes them.
-/
import DiceNotation.Proofs.Die.Sides
import DiceNotation.Proofs.Random.Taken
import DiceNotation.Proofs.Roll.Shown

namespace DiceNotation

open Face (Taken Account Draws DrawsMany agree_append)

-- ======================================================= rolls as loops

/-- A roll of a die that begins at a place of a row of words and has
come to its end: the words it took, and the outcome. -/
inductive Die.Evaluates (words : Nat → UInt32) :
    Die → Nat → List Taken → Outcome → Prop
  | group {g : Group} {place : Nat} {taken : List Taken}
      {faces : List UInt32}
      (drawn : DrawsMany words g.sides g.count.toNat place taken faces) :
      Evaluates words (.group g) place taken (.ofFaces faces g.bonus)
  | join {left right : Die} {place : Nat} {front back : List Taken}
      {leftOutcome rightOutcome : Outcome}
      (onLeft : Evaluates words left place front leftOutcome)
      (onRight : Evaluates words right (place + front.length) back
        rightOutcome) :
      Evaluates words (.join left right) place (front ++ back)
        (.ofSides leftOutcome rightOutcome)

namespace Die.Evaluates

variable {words : Nat → UInt32} {die : Die} {place : Nat}
  {taken : List Taken} {outcome : Outcome}

/-- A roll uses one word for each of its dice. -/
theorem account (h : die.Evaluates words place taken outcome) :
    Account words place taken die.diceCount := by
  induction h with
  | group drawn =>
      rw [diceCount_group]
      exact drawn.account
  | join _ _ ihl ihr =>
      rw [diceCount_join]
      exact ihl.append ihr

/-- A roll looks at no word but those it takes. -/
theorem congr {other : Nat → UInt32}
    (h : die.Evaluates words place taken outcome)
    (hsame : ∀ i < taken.length, other (place + i) = words (place + i)) :
    die.Evaluates other place taken outcome := by
  induction h with
  | group drawn => exact .group (drawn.congr hsame)
  | join _ _ ihl ihr =>
      obtain ⟨hleft, hright⟩ := agree_append _ _ hsame
      exact .join (ihl hleft) (ihr hright)

/-- A roll has one result. -/
theorem unique {taken' : List Taken} {outcome' : Outcome}
    (h : die.Evaluates words place taken outcome)
    (h' : die.Evaluates words place taken' outcome') :
    taken' = taken ∧ outcome' = outcome := by
  induction h generalizing taken' outcome' with
  | group drawn =>
      cases h' with
      | group drawn' =>
          obtain ⟨rfl, rfl⟩ := drawn.unique drawn'
          exact ⟨rfl, rfl⟩
  | join _ _ ihl ihr =>
      cases h' with
      | join onLeft onRight =>
          obtain ⟨rfl, rfl⟩ := ihl onLeft
          obtain ⟨rfl, rfl⟩ := ihr onRight
          exact ⟨rfl, rfl⟩

/-- Whatever words stand elsewhere, those taken lead to one end, and to
no other. -/
theorem evaluates_iff {other : Nat → UInt32}
    (h : die.Evaluates words place taken outcome)
    (hsame : ∀ i < taken.length, other (place + i) = words (place + i))
    (taken' : List Taken) (outcome' : Outcome) :
    die.Evaluates other place taken' outcome'
      ↔ taken' = taken ∧ outcome' = outcome := by
  have hends := h.congr hsame
  constructor
  · exact hends.unique
  · rintro ⟨rfl, rfl⟩
    exact hends

/-- The program rolls as the loops do, wherever these have an end. -/
theorem roll_eq {σ : Type} [WordSource σ] [LawfulWordSource σ]
    {source : σ}
    (h : die.Evaluates (WordSource.word source) place taken outcome) :
    die.roll (WordSource.after source place)
      = (outcome, WordSource.after source (place + taken.length)) := by
  induction h with
  | group drawn => rw [roll_group, drawn.drawMany_eq]
  | join _ _ ihl ihr =>
      rw [roll_join, ihl, ihr, List.length_append, Nat.add_assoc]

end Die.Evaluates

/-- A roll ends if words that a die uses never cease to come, whatever
the die. -/
theorem Die.exists_evaluates {words : Nat → UInt32}
    (h : ∀ (sides : Positive) place,
      ∃ n, Face.accepts sides.val (words (place + n)) = true)
    (die : Die) (place : Nat) :
    ∃ taken outcome, die.Evaluates words place taken outcome := by
  induction die generalizing place with
  | group g =>
      obtain ⟨taken, faces, hdrawn⟩ :=
        Face.exists_drawsMany (h g.sides) g.count.toNat place
      exact ⟨_, _, .group hdrawn⟩
  | join left right ihl ihr =>
      obtain ⟨front, leftOutcome, hleft⟩ := ihl place
      obtain ⟨back, rightOutcome, hright⟩ := ihr (place + front.length)
      exact ⟨_, _, .join hleft hright⟩

-- ================================================= a list and then zeros

/-- Every die uses the word zero. -/
theorem Face.accepts_zero (sides : Positive) :
    accepts sides.val 0 = true := by
  have hlt : sides.toNat < 2 ^ 32 := sides.val.toNat_lt
  have hrest : (2 ^ 32 - sides.toNat) % sides.toNat < sides.toNat :=
    Nat.mod_lt _ sides.toNat_pos
  have hzero : (0 : UInt32).toNat = 0 := rfl
  rw [accepts_iff, hzero, Nat.zero_mul]
  omega

namespace WordList

/-- The words of a list, and zeros behind it. -/
def row (words : List UInt32) (i : Nat) : UInt32 := words.getD i 0

theorem row_of_length_le {words : List UInt32} {i : Nat}
    (h : words.length ≤ i) : row words i = 0 := by
  unfold row
  rw [List.getD_eq_getElem?_getD, List.getElem?_eq_none h]
  rfl

/-- A list gives its row. -/
theorem word_ofList (words : List UInt32) :
    WordSource.word (ofList words) = row words := by
  funext i
  exact word_eq (ofList words) i

/-- In the row of a list, words that any die uses never cease to
come. -/
theorem exists_accepted (words : List UInt32) (sides : Positive)
    (place : Nat) :
    ∃ n, Face.accepts sides.val (row words (place + n)) = true := by
  refine ⟨words.length, ?_⟩
  rw [row_of_length_le (by omega)]
  exact Face.accepts_zero sides

/-- A word of the row that is passed over is a word of the list. -/
theorem getElem?_of_passed {words : List UInt32} {taken : List Taken}
    {dice : Nat} (h : Account (row words) 0 taken dice) {i : Nat}
    (hi : i < taken.length) (hpassed : taken[i].used = false) :
    words[i]? = some taken[i].word := by
  have hword : taken[i].word = row words i := by
    rw [h.word i hi, Nat.zero_add]
  by_cases hlt : i < words.length
  · rw [hword]
    simp [row, List.getElem?_eq_getElem hlt]
  · -- behind the list stands zero, which no die passes over
    obtain ⟨sides, hunused⟩ :=
      h.passed taken[i] (List.getElem_mem hi) hpassed
    rw [hword, row_of_length_le (by omega), Face.accepts_zero] at hunused
    cases hunused

/-- No more words are passed over than the list has. -/
theorem countP_passed_le {words : List UInt32} {taken : List Taken}
    {dice : Nat} (h : Account (row words) 0 taken dice) :
    taken.countP (fun t => !t.used) ≤ words.length := by
  have hnone : (taken.drop words.length).countP (fun t => !t.used)
      = 0 := by
    rw [List.countP_eq_zero]
    intro t ht hpassed
    obtain ⟨i, hi, rfl⟩ := List.getElem_of_mem ht
    rw [List.getElem_drop] at hpassed
    rw [List.length_drop] at hi
    have hword := getElem?_of_passed h (i := words.length + i) (by omega)
      (by simpa using hpassed)
    rw [List.getElem?_eq_none (by omega)] at hword
    cases hword
  have hsplit : taken.countP (fun t => !t.used)
      = (taken.take words.length).countP (fun t => !t.used) := by
    conv_lhs => rw [← List.take_append_drop words.length taken]
    rw [List.countP_append, hnone, Nat.add_zero]
  calc taken.countP (fun t => !t.used)
      = (taken.take words.length).countP (fun t => !t.used) := hsplit
    _ ≤ (taken.take words.length).length := List.countP_le_length
    _ ≤ words.length := List.length_take_le _ _

end WordList

-- =============================================================== the law

/-- A roll ends on every finite list of words with zeros behind it, and
takes no word too many. The loops have one result; the program comes to
it and leaves the words behind the last one taken. The words taken are
the first ones of the row, one for each die and those passed over, and
these are words of the list in their own places, so that they are no
more than the list has. With any other words behind those taken the roll
comes to the same result, and takes the same words. -/
theorem Die.roll_ends (die : Die) (words : List UInt32) :
    ∃ (taken : List Taken) (outcome : Outcome),
      (∀ taken' outcome',
        die.Evaluates (WordList.row words) 0 taken' outcome'
          ↔ taken' = taken ∧ outcome' = outcome)
      ∧ die.roll (WordList.ofList words)
        = (outcome, ⟨words.drop taken.length, taken.length⟩)
      ∧ (∀ i (h : i < taken.length),
        taken[i].word = WordList.row words i
          ∧ (taken[i].used = false → words[i]? = some taken[i].word))
      ∧ taken.length = die.diceCount + taken.countP (fun t => !t.used)
      ∧ taken.length ≤ die.diceCount + words.length
      ∧ (∀ other : Nat → UInt32,
        (∀ i < taken.length, other i = WordList.row words i) →
        ∀ taken' outcome', die.Evaluates other 0 taken' outcome'
          ↔ taken' = taken ∧ outcome' = outcome)
      ∧ ∀ (σ : Type) [WordSource σ] [LawfulWordSource σ] (source : σ),
        (∀ i < taken.length,
          WordSource.word source i = WordList.row words i) →
        die.roll source
          = (outcome, WordSource.after source taken.length) := by
  obtain ⟨taken, outcome, hends⟩ :=
    die.exists_evaluates (WordList.exists_accepted words) 0
  have haccount := hends.account
  have hagree : ∀ {other : Nat → UInt32},
      (∀ i < taken.length, other i = WordList.row words i) →
      ∀ i < taken.length,
        other (0 + i) = WordList.row words (0 + i) := by
    intro other hsame i hi
    rw [Nat.zero_add]
    exact hsame i hi
  have hroll : ∀ (σ : Type) [WordSource σ] [LawfulWordSource σ]
      (source : σ),
      (∀ i < taken.length,
        WordSource.word source i = WordList.row words i) →
      die.roll source
        = (outcome, WordSource.after source taken.length) := by
    intro σ _ _ source hsame
    have hrolled := (hends.congr (hagree hsame)).roll_eq
    rw [Nat.zero_add] at hrolled
    exact hrolled
  refine ⟨taken, outcome, hends.evaluates_iff fun _ _ => rfl, ?_, ?_,
    haccount.length_eq, ?_,
    fun _ hsame => hends.evaluates_iff (hagree hsame), hroll⟩
  · rw [hroll WordList (WordList.ofList words)
        (fun i _ => by rw [WordList.word_ofList]),
      WordList.after_eq, WordList.ofList, Nat.zero_add]
  · intro i hi
    refine ⟨?_, WordList.getElem?_of_passed haccount hi⟩
    rw [haccount.word i hi, Nat.zero_add]
  · have hpassed := WordList.countP_passed_le haccount
    have hlength := haccount.length_eq
    omega

end DiceNotation
