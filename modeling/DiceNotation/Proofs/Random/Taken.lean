/-
The words that drawing takes. A draw takes words one after the other,
passes over those that its die does not use, and ends with the first one
that it uses. Put so, nothing bounds it: `Draws` is that loop, over any
endless row of words, and says of a draw that it has come to its end.

# What a draw that has ended tells

The words it took stand in the row one behind the other, one of them was
used and the others were not (`Account`), and no word further on was
looked at (`Draws.congr`). A row gives a draw only one end
(`Draws.unique`), and some end if a word that the die uses is still to
come (`exists_draws`).

# The draw of the program

The program bounds the loop by the patience of its source. Where the
loop has an end, a source whose patience is enough comes to the same one
(`Draws.draw_eq`): it gives up only where no later word would be used.
-/
import DiceNotation.Proofs.Random.Draw

namespace DiceNotation.Face

-- ============================================================= accounts

/-- A word that was taken, and whether it gave a face. -/
structure Taken where
  word : UInt32
  used : Bool

/-- What words taken in a row from some place on have to do with the
row: they are the words that stand there, one was used for each of so
many dice, and each of the others is one that some die does not use. -/
structure Account (words : Nat → UInt32) (place : Nat)
    (taken : List Taken) (dice : Nat) : Prop where
  word : ∀ i (h : i < taken.length), taken[i].word = words (place + i)
  used : taken.countP Taken.used = dice
  passed : ∀ t ∈ taken, t.used = false →
    ∃ sides : Positive, accepts sides.val t.word = false

variable {words : Nat → UInt32}

theorem account_nil (words : Nat → UInt32) (place : Nat) :
    Account words place [] 0 where
  word := fun _ h => absurd h (Nat.not_lt_zero _)
  used := rfl
  passed := fun _ h => absurd h (List.not_mem_nil)

/-- One word is taken for a die if it is used, and else for none. -/
theorem account_single {place : Nat} (used : Bool)
    (h : used = false →
      ∃ sides : Positive, accepts sides.val (words place) = false) :
    Account words place [⟨words place, used⟩] used.toNat where
  word := by
    intro i hi
    obtain rfl : i = 0 := Nat.lt_one_iff.1 hi
    rfl
  used := by
    cases used with
    | false => rfl
    | true => rfl
  passed := by
    intro t ht hunused
    rw [List.mem_singleton.1 ht] at hunused ⊢
    exact h hunused

/-- Accounts of words one behind the other add up. -/
theorem Account.append {place m n : Nat} {front back : List Taken}
    (hfront : Account words place front m)
    (hback : Account words (place + front.length) back n) :
    Account words place (front ++ back) (m + n) where
  word := by
    intro i hi
    by_cases hlt : i < front.length
    · rw [List.getElem_append_left hlt]
      exact hfront.word i hlt
    · rw [List.length_append] at hi
      rw [List.getElem_append_right (by omega),
        hback.word (i - front.length) (by omega)]
      congr 1
      omega
  used := by rw [List.countP_append, hfront.used, hback.used]
  passed := by
    intro t ht
    rcases List.mem_append.1 ht with ht | ht
    · exact hfront.passed t ht
    · exact hback.passed t ht

/-- The words taken are one for each of the dice, and those passed
over. -/
theorem Account.length_eq {place dice : Nat} {taken : List Taken}
    (h : Account words place taken dice) :
    taken.length = dice + taken.countP (fun t => !t.used) := by
  have hsplit := List.length_eq_countP_add_countP Taken.used (l := taken)
  rw [h.used] at hsplit
  simpa using hsplit

/-- Rows that agree on words one behind the other agree on the first of
them and on the others. -/
theorem agree_append {other : Nat → UInt32} {place : Nat}
    (front back : List Taken)
    (h : ∀ i < (front ++ back).length,
      other (place + i) = words (place + i)) :
    (∀ i < front.length, other (place + i) = words (place + i))
      ∧ ∀ i < back.length, other (place + front.length + i)
        = words (place + front.length + i) := by
  rw [List.length_append] at h
  constructor
  · intro i hi
    exact h i (by omega)
  · intro i hi
    rw [Nat.add_assoc]
    exact h (front.length + i) (by omega)

-- ============================================================= one draw

/-- A draw that begins at a place of the row and has come to its end:
the words it took, and the face. -/
inductive Draws (words : Nat → UInt32) (sides : Positive) :
    Nat → List Taken → UInt32 → Prop
  | used {place : Nat} (h : accepts sides.val (words place) = true) :
      Draws words sides place [⟨words place, true⟩]
        (ofWord sides.val (words place))
  | passed {place : Nat} {taken : List Taken} {face : UInt32}
      (h : accepts sides.val (words place) = false)
      (more : Draws words sides (place + 1) taken face) :
      Draws words sides place (⟨words place, false⟩ :: taken) face

namespace Draws

variable {sides : Positive} {place : Nat} {taken : List Taken}
  {face : UInt32}

theorem account (h : Draws words sides place taken face) :
    Account words place taken 1 := by
  induction h with
  | used _ => exact account_single true nofun
  | passed hpassed _ ih =>
      exact (account_single false fun _ => ⟨sides, hpassed⟩).append ih

/-- A draw looks at no word but those it takes. -/
theorem congr {other : Nat → UInt32}
    (h : Draws words sides place taken face)
    (hsame : ∀ i < taken.length, other (place + i) = words (place + i)) :
    Draws other sides place taken face := by
  induction h with
  | @used place hused =>
      have hword : other place = words place :=
        hsame 0 (Nat.zero_lt_one)
      rw [← hword] at hused ⊢
      exact .used hused
  | @passed place taken face hpassed _ ih =>
      obtain ⟨hfirst, hothers⟩ :=
        agree_append [⟨words place, false⟩] taken hsame
      have hword : other place = words place :=
        hfirst 0 (Nat.zero_lt_one)
      rw [← hword] at hpassed ⊢
      exact .passed hpassed (ih hothers)

/-- A draw has one end. -/
theorem unique {taken' : List Taken} {face' : UInt32}
    (h : Draws words sides place taken face)
    (h' : Draws words sides place taken' face') :
    taken' = taken ∧ face' = face := by
  induction h generalizing taken' face' with
  | used hused =>
      cases h' with
      | used _ => exact ⟨rfl, rfl⟩
      | passed hpassed _ =>
          rw [hused] at hpassed
          cases hpassed
  | passed hpassed _ ih =>
      cases h' with
      | used hused =>
          rw [hused] at hpassed
          cases hpassed
      | passed _ more =>
          obtain ⟨rfl, rfl⟩ := ih more
          exact ⟨rfl, rfl⟩

/-- The last word of a draw is the first one that the die uses, and
gives the face. -/
theorem exists_last (h : Draws words sides place taken face) :
    ∃ n, taken.length = n + 1
      ∧ (∀ i < n, accepts sides.val (words (place + i)) = false)
      ∧ accepts sides.val (words (place + n)) = true
      ∧ face = ofWord sides.val (words (place + n)) := by
  induction h with
  | used hused =>
      exact ⟨0, rfl, fun _ hi => absurd hi (Nat.not_lt_zero _), hused, rfl⟩
  | @passed place taken face hpassed _ ih =>
      obtain ⟨n, hlength, hunused, hused, hface⟩ := ih
      have hplace : ∀ i, place + 1 + i = place + (i + 1) := by
        intro i
        omega
      rw [hplace] at hused hface
      refine ⟨n + 1, by rw [List.length_cons, hlength], ?_, hused, hface⟩
      intro i hi
      cases i with
      | zero => exact hpassed
      | succ i =>
          rw [← hplace]
          exact hunused i (by omega)

end Draws

/-- A draw ends if a word that the die uses is still to come. -/
theorem exists_draws {sides : Positive} {place : Nat}
    (h : ∃ n, accepts sides.val (words (place + n)) = true) :
    ∃ taken face, Draws words sides place taken face := by
  obtain ⟨n, hn⟩ := h
  -- on how far off that word is: each word passed over brings it nearer
  induction n generalizing place with
  | zero => exact ⟨_, _, .used hn⟩
  | succ n ih =>
      by_cases hused : accepts sides.val (words place) = true
      · exact ⟨_, _, .used hused⟩
      · have hnearer : accepts sides.val (words (place + 1 + n)) = true := by
          rw [Nat.add_assoc, Nat.add_comm 1]
          exact hn
        obtain ⟨taken, face, hmore⟩ := ih hnearer
        exact ⟨_, _, .passed (by simpa using hused) hmore⟩

-- ================================================================ a row

/-- Draws for equal dice, each going on behind the words that the one
before it took. -/
inductive DrawsMany (words : Nat → UInt32) (sides : Positive) :
    Nat → Nat → List Taken → List UInt32 → Prop
  | none {place : Nat} : DrawsMany words sides 0 place [] []
  | more {n place : Nat} {taken others : List Taken} {face : UInt32}
      {faces : List UInt32} (first : Draws words sides place taken face)
      (rest : DrawsMany words sides n (place + taken.length) others faces) :
      DrawsMany words sides (n + 1) place (taken ++ others) (face :: faces)

namespace DrawsMany

variable {sides : Positive} {n place : Nat} {taken : List Taken}
  {faces : List UInt32}

theorem account (h : DrawsMany words sides n place taken faces) :
    Account words place taken n := by
  induction h with
  | @none place => exact account_nil words place
  | @more n _ _ _ _ _ first _ ih =>
      rw [Nat.add_comm n 1]
      exact first.account.append ih

theorem congr {other : Nat → UInt32}
    (h : DrawsMany words sides n place taken faces)
    (hsame : ∀ i < taken.length, other (place + i) = words (place + i)) :
    DrawsMany other sides n place taken faces := by
  induction h with
  | none => exact .none
  | more first _ ih =>
      obtain ⟨hfirst, hothers⟩ := agree_append _ _ hsame
      exact .more (first.congr hfirst) (ih hothers)

theorem unique {taken' : List Taken} {faces' : List UInt32}
    (h : DrawsMany words sides n place taken faces)
    (h' : DrawsMany words sides n place taken' faces') :
    taken' = taken ∧ faces' = faces := by
  induction h generalizing taken' faces' with
  | none =>
      cases h'
      exact ⟨rfl, rfl⟩
  | more first _ ih =>
      cases h' with
      | more first' rest' =>
          obtain ⟨rfl, rfl⟩ := first.unique first'
          obtain ⟨rfl, rfl⟩ := ih rest'
          exact ⟨rfl, rfl⟩

end DrawsMany

/-- Draws in a row end if words that the die uses never cease to
come. -/
theorem exists_drawsMany {sides : Positive}
    (h : ∀ place, ∃ n, accepts sides.val (words (place + n)) = true)
    (n place : Nat) :
    ∃ taken faces, DrawsMany words sides n place taken faces := by
  induction n generalizing place with
  | zero => exact ⟨_, _, .none⟩
  | succ n ih =>
      obtain ⟨taken, face, hfirst⟩ := exists_draws (h place)
      obtain ⟨others, faces, hrest⟩ := ih (place + taken.length)
      exact ⟨_, _, .more hfirst hrest⟩

-- ========================================================== the program

section Source

variable {σ : Type} [WordSource σ] [LawfulWordSource σ]

open WordSource (word after word_after after_after)

/-- The program draws as the loop does, wherever the loop has an end. -/
theorem Draws.draw_eq {source : σ} {sides : Positive} {place : Nat}
    {taken : List Taken} {face : UInt32}
    (h : Draws (word source) sides place taken face) :
    draw sides (after source place)
      = (face, after source (place + taken.length)) := by
  obtain ⟨n, hlength, hunused, hused, rfl⟩ := h.exists_last
  obtain ⟨passed, hpassed, hdraw⟩ :=
    exists_draw sides (after source place)
  have hbefore := hpassed.unused
  have hended := hpassed.used_or_never
  simp only [word_after] at hbefore hended
  -- the draw stops neither in front of the first used word nor behind it
  have hsame : passed = n := by
    rcases Nat.lt_trichotomy passed n with hlt | heq | hgt
    · rcases hended with hend | hnever
      · rw [hunused passed hlt] at hend
        cases hend
      · rw [hnever n] at hused
        cases hused
    · exact heq
    · rw [hbefore n hgt] at hused
      cases hused
  rw [hdraw, hsame, word_after, after_after, hlength]

theorem DrawsMany.drawMany_eq {source : σ} {sides : Positive}
    {n place : Nat} {taken : List Taken} {faces : List UInt32}
    (h : DrawsMany (word source) sides n place taken faces) :
    drawMany sides n (after source place)
      = (faces, after source (place + taken.length)) := by
  induction h with
  | none => rfl
  | more first _ ih =>
      rw [drawMany_succ, first.draw_eq, ih, List.length_append,
        Nat.add_assoc]

end Source

end DiceNotation.Face
