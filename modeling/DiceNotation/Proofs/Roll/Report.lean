/-
What an outcome tells of its die. An outcome has the shape of the die it
was rolled from; each of its groups has a face for each die, all of them
faces of the right number of sides, and the bonus of its group; and its
totals add up (`Die.ReportedBy`). From that alone follow the sums over
the whole: the total is all faces and all bonuses, and there are as many
faces as dice.

# The order of the faces

Faces are listed by the shape of the outcome and drawn by the shape of
the die. That the two orders are one is said on the words of the source:
the faces of an outcome are read off them one behind the other, each
with the sides of its die, and what is left of the source begins behind
the last word read (`Face.ReadOff`).

# Where the range comes in

All but the totals holds of every roll. A total is the sum of its parts
if no sum of the roll leaves the 64-bit range, and for dice that were
read none does.
-/
import DiceNotation.Proofs.Random.Draw
import DiceNotation.Proofs.Roll.Fairness
import DiceNotation.Proofs.Roll.Range
import DiceNotation.Proofs.Roll.Sequence

namespace DiceNotation

-- ============================================================ the report

/-- An outcome that reports a die as rolled: in the shape of the die,
with a face for each of its dice, its bonuses, and totals that add
up. -/
inductive Die.ReportedBy : Die → Outcome → Prop
  | group {g : Group} {faces : List UInt32} {total : Int64}
      (length : faces.length = g.count.toNat)
      (on : ∀ face ∈ faces, Face.On g.sides face)
      (sum : total.toInt = Outcome.exactSum faces + g.bonus.toInt) :
      ReportedBy (.group g) (.group faces g.bonus total)
  | join {left right : Die} {leftOutcome rightOutcome : Outcome}
      {total : Int64}
      (onLeft : ReportedBy left leftOutcome)
      (onRight : ReportedBy right rightOutcome)
      (sum : total.toInt
        = leftOutcome.total.toInt + rightOutcome.total.toInt) :
      ReportedBy (.join left right) (.join leftOutcome rightOutcome total)

/-- The faces of two lists sum up one after the other. -/
theorem Outcome.exactSum_append (front back : List UInt32) :
    exactSum (front ++ back) = exactSum front + exactSum back := by
  simp [exactSum]

namespace Die

/-- The bonuses of a die, as an integer. -/
def exactBonus (die : Die) : Int :=
  (die.groups.map fun g => g.bonus.toInt).sum

@[simp] theorem exactBonus_group (g : Group) :
    (Die.group g).exactBonus = g.bonus.toInt := by
  simp [exactBonus]

@[simp] theorem exactBonus_join (left right : Die) :
    (Die.join left right).exactBonus
      = left.exactBonus + right.exactBonus := by
  simp [exactBonus]

/-- What a die shows reports the die if its sums fit. -/
theorem Shows.reportedBy {die : Die} {outcome : Outcome}
    (h : die.Shows outcome) (hfit : outcome.SumsFit) :
    die.ReportedBy outcome := by
  induction h with
  | @group g faces length on =>
      have hsum := (Shows.group length on).total_toInt hfit
      exact .group length on hsum
  | join _ _ ihl ihr =>
      obtain ⟨hleft, hright, hsum⟩ := hfit
      exact .join (ihl hleft) (ihr hright) (Word.add_toInt hsum)

/-- The total of a report is all of its faces and all bonuses. -/
theorem ReportedBy.total_toInt {die : Die} {outcome : Outcome}
    (h : die.ReportedBy outcome) :
    outcome.total.toInt
      = Outcome.exactSum outcome.faces + die.exactBonus := by
  induction h with
  | group length on sum =>
      rw [Outcome.faces_group, exactBonus_group]
      exact sum
  | join _ _ sum ihl ihr =>
      rw [Outcome.faces_join, Outcome.exactSum_append, exactBonus_join,
        Outcome.total, sum, ihl, ihr]
      omega

/-- A die shows as many faces as it has dice. -/
theorem Shows.length_faces {die : Die} {outcome : Outcome}
    (h : die.Shows outcome) : outcome.faces.length = die.diceCount := by
  induction h with
  | group length on =>
      rw [Outcome.ofFaces, Outcome.faces_group, diceCount_group, length]
  | join _ _ ihl ihr =>
      rw [Outcome.ofSides, Outcome.faces_join, List.length_append, ihl,
        ihr, diceCount_join]

end Die

-- ============================================================= the order

section Source

variable {σ : Type} [WordSource σ]

open WordSource (after)

/-- A row of dice is read off the words, from any place on. -/
theorem Face.exists_readOff (row : List Positive) (source : σ)
    (start : Nat) :
    ∃ stop, ReadOff source start row
        (drawEach row (after source start)).1 stop
      ∧ (drawEach row (after source start)).2 = after source stop := by
  induction row generalizing start with
  | nil => exact ⟨start, .nil, rfl⟩
  | cons sides row ih =>
      obtain ⟨passed, hpassed, hdraw⟩ :=
        exists_draw sides (after source start)
      obtain ⟨stop, hothers, hstop⟩ := ih (start + passed + 1)
      rw [drawEach_cons, hdraw, WordSource.word_after,
        WordSource.after_after]
      exact ⟨stop, .cons hpassed hothers, hstop⟩

/-- The faces that a die rolls are read off the words of the source in
their order, and the words behind are left. -/
theorem Die.exists_readOff (die : Die) (source : σ) :
    ∃ stop, Face.ReadOff source 0 die.diceSides
        (die.roll source).1.faces stop
      ∧ (die.roll source).2 = after source stop := by
  have hread := Face.exists_readOff die.diceSides source 0
  rw [show after source 0 = source from rfl,
    Face.drawEach_diceSides] at hread
  exact hread

-- ========================================================= dice in order

/-- Dice rolled in order go through states of the source: each die is
rolled from the state that the die before it left. -/
theorem Rolls.exists_states (dice : List Die) (source : σ) :
    ∃ states : Nat → σ, states 0 = source
      ∧ (roll dice source).2 = states dice.length
      ∧ ∀ k (h : k < dice.length),
        (roll dice source).1[k]? = some (dice[k].roll (states k)).1
          ∧ states (k + 1) = (dice[k].roll (states k)).2 := by
  induction dice generalizing source with
  | nil =>
      refine ⟨fun _ => source, rfl, rfl, ?_⟩
      intro k hk
      cases hk
  | cons die dice ih =>
      obtain ⟨states, hfirst, hlast, hstates⟩ := ih (die.roll source).2
      -- the states of the others, one place further on
      refine ⟨fun k => k.casesOn source states, rfl, ?_, ?_⟩
      · rw [roll_cons]
        exact hlast
      · intro k hk
        rw [roll_cons]
        cases k with
        | zero => exact ⟨rfl, hfirst⟩
        | succ k => exact hstates k (by simpa using hk)

-- =============================================================== the law

/-- A roll tells of its die. Its outcome has the shape of the die, with
the faces and bonuses of its groups, and if its sums fit, which they do
for dice that were read, every total in it adds up, and the whole is all
faces and all bonuses. There is one face for each die, and they stand in
the order in which they were drawn. Dice rolled in order have their
outcomes in order, each rolled from what the one before it left of the
source. -/
theorem Die.roll_reports :
    (∀ (die : Die) (source : σ),
      die.Shows (die.roll source).1
        ∧ ((die.roll source).1.SumsFit →
          die.ReportedBy (die.roll source).1
            ∧ (die.roll source).1.total.toInt
              = Outcome.exactSum (die.roll source).1.faces
                + die.exactBonus)
        ∧ (die.IsRead → (die.roll source).1.SumsFit)
        ∧ (die.roll source).1.faces.length = die.diceCount
        ∧ ∃ stop, Face.ReadOff source 0 die.diceSides
            (die.roll source).1.faces stop
          ∧ (die.roll source).2 = after source stop)
    ∧ ∀ (dice : List Die) (source : σ),
      (Rolls.roll dice source).1.length = dice.length
        ∧ ∃ states : Nat → σ, states 0 = source
          ∧ (Rolls.roll dice source).2 = states dice.length
          ∧ ∀ k (h : k < dice.length),
            (Rolls.roll dice source).1[k]?
                = some (dice[k].roll (states k)).1
              ∧ states (k + 1) = (dice[k].roll (states k)).2 := by
  constructor
  · intro die source
    have hshows := die.roll_shows source
    refine ⟨hshows, ?_, ?_, hshows.length_faces, die.exists_readOff source⟩
    · intro hfit
      have hreported := hshows.reportedBy hfit
      exact ⟨hreported, hreported.total_toInt⟩
    · intro hread
      exact hshows.sumsFit hread.shape.2
  · intro dice source
    exact ⟨Rolls.length_roll dice source, Rolls.exists_states dice source⟩

/-- Joined dice of which the last passes a word over. -/
theorem Die.roll_reports_of_joined :
    ∃ (die : Die) (source : WordList) (outcome : Outcome),
      (die.roll source).1 = outcome ∧ outcome.faces = [1, 6, 3]
        ∧ outcome.SumsFit ∧ die.ReportedBy outcome
        ∧ outcome.total.toInt
          = Outcome.exactSum outcome.faces + die.exactBonus := by
  let die : Die := .join (.group ⟨⟨2, by decide⟩, ⟨6, by decide⟩, 1⟩)
    (.group ⟨⟨1, by decide⟩, ⟨3, by decide⟩, -2⟩)
  let source :=
    WordList.ofList [0, 4294967295, 1431655765, 4294967295]
  let outcome : Outcome := .join (.group [1, 6] 1 8) (.group [3] (-2) 1) 9
  have hroll : (die.roll source).1 = outcome := by decide
  have hfit : outcome.SumsFit := by
    refine ⟨⟨⟨?_, ?_, trivial⟩, ?_⟩, ⟨⟨?_, trivial⟩, ?_⟩, ?_⟩ <;> decide
  obtain ⟨hdie, -⟩ := Die.roll_reports (σ := WordList)
  obtain ⟨-, hreports, -⟩ := hdie die source
  rw [hroll] at hreports
  exact ⟨die, source, outcome, hroll, rfl, hfit, hreports hfit⟩

end Source

end DiceNotation
