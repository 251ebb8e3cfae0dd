/-
Rolling is fair, exactly. Among all lists of as many words as a die has
dice, each row of faces is rolled without a word passed over by the same
number of lists: the product, over the dice, of the share of words that
every face of the dice has.

# One word for each die

A die expression draws its dice in a row, left to right, whatever its
nesting (`drawEach_diceSides`). A list with one word for each die is
used up exactly when none of its words is passed over: a word passed
over is one word more that is taken, and there is none to spare
(`drawEach_eq_iff`). Then the face of each die hangs on its own word and
on nothing else, and lists are counted die by die.
-/
import DiceNotation.Proofs.Die.Sides
import DiceNotation.Proofs.Random.Share
import DiceNotation.Proofs.Roll.Shown

namespace DiceNotation

-- ======================================================== dice in a row

namespace Die

/-- The sides of each die of a die expression, left to right. -/
def diceSides (die : Die) : List Positive :=
  die.groups.flatMap fun g => List.replicate g.count.toNat g.sides

@[simp] theorem diceSides_group (g : Group) :
    (Die.group g).diceSides = List.replicate g.count.toNat g.sides := by
  simp [diceSides]

@[simp] theorem diceSides_join (left right : Die) :
    (Die.join left right).diceSides
      = left.diceSides ++ right.diceSides := by
  simp [diceSides]

theorem length_diceSides (die : Die) :
    die.diceSides.length = die.diceCount := by
  induction die with
  | group g => simp
  | join left right ihl ihr => simp [ihl, ihr]

end Die

namespace Face

section Source

variable {σ : Type} [WordSource σ]

/-- Draws a face of each die in a row. -/
def drawEach : List Positive → σ → List UInt32 × σ
  | [], source => ([], source)
  | sides :: row, source =>
      let (face, source) := draw sides source
      let (faces, source) := drawEach row source
      (face :: faces, source)

@[simp] theorem drawEach_nil (source : σ) :
    drawEach [] source = ([], source) := rfl

@[simp] theorem drawEach_cons (sides : Positive) (row : List Positive)
    (source : σ) :
    drawEach (sides :: row) source
      = ((draw sides source).1 :: (drawEach row (draw sides source).2).1,
          (drawEach row (draw sides source).2).2) := rfl

/-- A row is drawn as its front and then its back. -/
theorem drawEach_append (front back : List Positive) (source : σ) :
    drawEach (front ++ back) source
      = ((drawEach front source).1
            ++ (drawEach back (drawEach front source).2).1,
          (drawEach back (drawEach front source).2).2) := by
  induction front generalizing source with
  | nil => rfl
  | cons sides front ih => simp [ih]

/-- Equal dice are drawn in a row. -/
theorem drawEach_replicate (sides : Positive) (n : Nat) (source : σ) :
    drawEach (List.replicate n sides) source
      = drawMany sides n source := by
  induction n generalizing source with
  | zero => rfl
  | succ n ih => rw [List.replicate_succ, drawEach_cons, ih, drawMany_succ]

/-- A die draws its dice in a row. -/
theorem drawEach_diceSides (die : Die) (source : σ) :
    drawEach die.diceSides source
      = ((die.roll source).1.faces, (die.roll source).2) := by
  induction die generalizing source with
  | group g =>
      rw [Die.diceSides_group, drawEach_replicate, Die.roll_group]
      simp [Outcome.ofFaces]
  | join left right ihl ihr =>
      rw [Die.diceSides_join, drawEach_append, ihl, ihr, Die.roll_join]
      simp [Outcome.ofSides]

end Source

-- ===================================================== words of a list

theorem next_taken (source : WordList) :
    (WordSource.next source).2.taken = source.taken + 1 := by
  obtain ⟨pending, taken⟩ := source
  cases pending with
  | nil => rfl
  | cons word pending => rfl

/-- Drawing a face takes a word at least. -/
theorem drawWithin_taken (sides : UInt32) (patience : Nat)
    (source : WordList) :
    source.taken < (drawWithin sides patience source).2.taken := by
  induction patience generalizing source with
  | zero =>
      show _ < (WordSource.next source).2.taken
      rw [next_taken]
      exact Nat.lt_succ_self _
  | succ patience ih =>
      have hnext := next_taken source
      simp only [drawWithin]
      split
      · show _ < (WordSource.next source).2.taken
        omega
      · have hmore := ih (WordSource.next source).2
        omega

/-- Drawing a row takes a word for each die at least. -/
theorem drawEach_taken (row : List Positive) (source : WordList) :
    source.taken + row.length ≤ (drawEach row source).2.taken := by
  induction row generalizing source with
  | nil => exact Nat.le_refl _
  | cons sides row ih =>
      have hfirst : source.taken < (draw sides source).2.taken :=
        drawWithin_taken _ _ _
      have hothers := ih (draw sides source).2
      show _ ≤ (drawEach row (draw sides source).2).2.taken
      rw [List.length_cons]
      omega

/-- A word that is used is the only one that is taken. -/
theorem draw_of_accepts {sides : Positive} {word : UInt32}
    (h : accepts sides.val word = true) (pending : List UInt32)
    (taken : Nat) :
    draw sides (WordList.mk (word :: pending) taken)
      = (ofWord sides.val word, ⟨pending, taken + 1⟩) := by
  show (if accepts sides.val word = true then _ else _) = _
  rw [if_pos h]

/-- A word that is passed over is not the only one that is taken. -/
theorem draw_taken_of_not_accepts {sides : Positive} {word : UInt32}
    (h : accepts sides.val word ≠ true) (pending : List UInt32)
    (taken : Nat) :
    taken + 1
      < (draw sides (WordList.mk (word :: pending) taken)).2.taken := by
  have hdraw : draw sides (WordList.mk (word :: pending) taken)
      = drawWithin sides.val (pending.length + 1)
          (WordList.mk pending (taken + 1)) := by
    show (if accepts sides.val word = true then _ else _) = _
    rw [if_neg h]
    rfl
  rw [hdraw]
  exact drawWithin_taken _ _ (WordList.mk pending (taken + 1))

-- ========================================================= exact draws

/-- Each die of a row uses its word, and shows its face. -/
inductive GivesEach :
    List Positive → List UInt32 → List UInt32 → Prop
  | nil : GivesEach [] [] []
  | cons {sides : Positive} {row : List Positive} {word face : UInt32}
      {words faces : List UInt32} (first : Gives sides word face)
      (others : GivesEach row words faces) :
      GivesEach (sides :: row) (word :: words) (face :: faces)

theorem GivesEach.length {row : List Positive} {words faces : List UInt32}
    (h : GivesEach row words faces) : words.length = row.length := by
  induction h with
  | nil => rfl
  | cons _ _ ih => rw [List.length_cons, List.length_cons, ih]

theorem GivesEach.used {row : List Positive} {words faces : List UInt32}
    (h : GivesEach row words faces) :
    List.Forall₂ (fun sides word => accepts sides.val word = true)
      row words := by
  induction h with
  | nil => exact .nil
  | cons first _ ih => exact .cons first.used ih

/-- A row of dice uses a list with a word for each of them up, and takes
no word more, exactly if each die uses its own. -/
theorem drawEach_eq_iff {row : List Positive} {words : List UInt32}
    (hlength : words.length = row.length) (faces : List UInt32)
    (taken : Nat) :
    drawEach row (WordList.mk words taken)
        = (faces, ⟨[], taken + row.length⟩)
      ↔ GivesEach row words faces := by
  induction row generalizing words faces taken with
  | nil =>
      obtain rfl := List.length_eq_zero_iff.1 hlength
      constructor
      · intro h
        cases h
        exact .nil
      · rintro ⟨⟩
        rfl
  | cons sides row ih =>
      obtain ⟨word, words, rfl⟩ : ∃ word rest, words = word :: rest :=
        List.exists_cons_of_length_eq_add_one hlength
      have hothers : words.length = row.length := by simpa using hlength
      rw [drawEach_cons, List.length_cons]
      by_cases hused : accepts sides.val word = true
      · rw [draw_of_accepts hused]
        constructor
        · intro h
          injection h with hfaces hsource
          subst hfaces
          refine .cons ⟨hused, rfl⟩ ((ih hothers _ (taken + 1)).1 ?_)
          rw [Nat.add_right_comm, Nat.add_assoc, ← hsource]
        · intro h
          cases h with
          | cons first others =>
              rw [(ih hothers _ (taken + 1)).2 others, first.face,
                Nat.add_right_comm, Nat.add_assoc]
      · -- with a word passed over, more words are taken than there are dice
        constructor
        · intro h
          have hfirst := draw_taken_of_not_accepts hused words taken
          have hrest := drawEach_taken row
            (draw sides (WordList.mk (word :: words) taken)).2
          have htaken := congrArg (fun result => result.2.taken) h
          simp only at htaken
          omega
        · intro h
          cases h with
          | cons first _ => exact absurd first.used hused

/-- A list of words for a row is a word for the first die and a list for
the others. -/
def firstAndOthers (sides : Positive) (row : List Positive)
    (face : UInt32) (faces : List UInt32) :
    {words : List UInt32 // GivesEach (sides :: row) words (face :: faces)}
      ≃ {word : UInt32 // Gives sides word face}
        × {words : List UInt32 // GivesEach row words faces} where
  toFun
    | ⟨word :: words, h⟩ =>
        (⟨word, by cases h; assumption⟩, ⟨words, by cases h; assumption⟩)
  invFun := fun (word, words) =>
    ⟨word.1 :: words.1, .cons word.2 words.2⟩
  left_inv := by
    rintro ⟨words, h⟩
    cases h
    rfl
  right_inv _ := rfl

/-- The faces of a row of dice have as many lists of words as the shares
multiply to. -/
theorem card_givesEach {row : List Positive} {faces : List UInt32}
    (h : List.Forall₂ On row faces) :
    Nat.card {words : List UInt32 // GivesEach row words faces}
      = (row.map share).prod := by
  induction h with
  | nil =>
      have honly : ∀ words : List UInt32,
          GivesEach [] words [] ↔ words = [] := by
        intro words
        constructor
        · rintro ⟨⟩
          rfl
        · rintro rfl
          exact .nil
      simp [honly]
  | @cons sides face row faces hface _ ih =>
      rw [List.map_cons, List.prod_cons, ← card_gives sides hface, ← ih,
        ← Nat.card_prod]
      exact Nat.card_congr (firstAndOthers sides row face faces)

end Face

-- ============================================================= the law

namespace Die

/-- A die takes a list of words, all of them and none behind them,
passes none of them over, and shows the faces. -/
structure RollsExactly (die : Die) (words faces : List UInt32) :
    Prop where
  length : words.length = die.diceCount
  source : (die.roll (WordList.ofList words)).2 = ⟨[], die.diceCount⟩
  used : List.Forall₂ (fun sides word => Face.accepts sides.val word = true)
    die.diceSides words
  shown : (die.roll (WordList.ofList words)).1.faces = faces

/-- The words of an exact roll give the faces one by one. -/
theorem rollsExactly_iff {die : Die} {words faces : List UInt32} :
    die.RollsExactly words faces
      ↔ Face.GivesEach die.diceSides words faces := by
  constructor
  · intro h
    have hdraw := Face.drawEach_diceSides die (WordList.ofList words)
    rw [h.source, h.shown] at hdraw
    refine (Face.drawEach_eq_iff ?_ faces 0).1 ?_
    · rw [h.length, length_diceSides]
    · rw [length_diceSides, Nat.zero_add]
      exact hdraw
  · intro h
    have hlength : words.length = die.diceSides.length := h.length
    have hdraw := (Face.drawEach_eq_iff hlength faces 0).2 h
    rw [Nat.zero_add, length_diceSides] at hdraw
    have hroll := Face.drawEach_diceSides die (WordList.ofList words)
    rw [show WordList.ofList words = ⟨words, 0⟩ from rfl, hdraw] at hroll
    injection hroll with hfaces hsource
    exact ⟨hlength.trans die.length_diceSides, hsource.symm, h.used,
      hfaces.symm⟩

/-- Rolling is fair. Each row of faces, one face for each die, is rolled
by as many lists of words as the shares of the dice multiply to: for a
die with `s` sides the share is 2^32 divided by `s`, rounded down,
whichever the face. -/
theorem card_words_of_faces (die : Die) {faces : List UInt32}
    (h : List.Forall₂ Face.On die.diceSides faces) :
    Nat.card {words : List UInt32 // die.RollsExactly words faces}
      = (die.diceSides.map fun sides => 2 ^ 32 / sides.toNat).prod := by
  simp only [rollsExactly_iff]
  exact Face.card_givesEach h

/-- Two dice with three sides and one with six show 1, 3 and 6 for as
many lists of words as any other three faces. -/
theorem card_words_of_three_dice :
    ∃ die : Die, Die.parse "2d3-1 & d6" = .ok die
      ∧ Nat.card {words : List UInt32 // die.RollsExactly words [1, 3, 6]}
        = 1431655765 * (1431655765 * 715827882) := by
  let die : Die :=
    .join (.group ⟨⟨2, by decide⟩, ⟨3, by decide⟩, -1⟩)
      (.group ⟨⟨1, by decide⟩, ⟨6, by decide⟩, 0⟩)
  have hparse : Die.parse "2d3-1 & d6" = .ok die := by rfl
  have hon : List.Forall₂ Face.On die.diceSides [1, 3, 6] := by
    refine .cons ⟨?_, ?_⟩ (.cons ⟨?_, ?_⟩ (.cons ⟨?_, ?_⟩ .nil)) <;> decide
  have hshares : (die.diceSides.map fun sides => 2 ^ 32 / sides.toNat)
      = [1431655765, 1431655765, 715827882] := by decide
  refine ⟨die, hparse, ?_⟩
  rw [card_words_of_faces die hon, hshares]
  simp

end Die

end DiceNotation
