/-
Outcomes told apart by their text. The text of an outcome has no
brackets around joined parts and no total but the last, and loses
nothing else: two outcomes have the same text exactly if they have the
same groups, left to right, and the same total.

# Why nothing runs together

Each part of the text ends where a character stands that the part cannot
go on with: a numeral in front of what is no digit, faces at the closing
bracket, a group in front of a blank with an ampersand or an equals sign
behind it. A bonus starts with a blank, too, but has a sign behind it.
So where two texts of such parts agree, their first parts do, and what
follows agrees again. `ToldApart` says this of one kind of part, given
what may follow it, and is proved from numerals up to whole texts, each
kind from those it is made of.
-/
import DiceNotation.Proofs.Roll.Nesting

namespace DiceNotation

/-- A kind of text that tells what it was written for, whatever follows
it, of what may follow. -/
def ToldApart {α : Type} (write : α → List Char)
    (follow : List Char → Prop) : Prop :=
  ∀ ⦃a b rest more⦄, follow rest → follow more →
    write a ++ rest = write b ++ more → a = b ∧ rest = more

-- ============================================================= numerals

namespace Decimal

theorem toldApart_ofNat : ToldApart ofNat NoDigitAhead := by
  intro m n rest more hrest hmore h
  obtain ⟨hrun, hafter⟩ := digits_append (isDigit_of_mem_ofNat m) hrest
  obtain ⟨hrun', hafter'⟩ := digits_append (isDigit_of_mem_ofNat n) hmore
  rw [h] at hrun hafter
  have hnumeral : ofNat m = ofNat n := hrun.symm.trans hrun'
  refine ⟨?_, hafter.symm.trans hafter'⟩
  rw [← value_ofNat m, hnumeral, value_ofNat]

/-- No numeral starts with a sign. -/
theorem ofNat_append_ne {c : Char} (hc : c.isDigit = false) (n : Nat)
    (rest more : List Char) : ofNat n ++ rest ≠ c :: more := by
  intro h
  obtain ⟨d, run, hnumeral, hd⟩ := exists_digit_of_ofNat n
  rw [hnumeral] at h
  injection h with hdc
  rw [hdc, hc] at hd
  cases hd

theorem toldApart_ofInt : ToldApart ofInt NoDigitAhead := by
  intro m n rest more hrest hmore h
  cases m with
  | ofNat m =>
      cases n with
      | ofNat n =>
          obtain ⟨rfl, hrest⟩ := toldApart_ofNat hrest hmore h
          exact ⟨rfl, hrest⟩
      | negSucc n => exact absurd h (ofNat_append_ne rfl m _ _)
  | negSucc m =>
      cases n with
      | ofNat n => exact absurd h.symm (ofNat_append_ne rfl n _ _)
      | negSucc n =>
          injection h with _ h
          obtain ⟨hval, hrest⟩ := toldApart_ofNat hrest hmore h
          injection hval with hval
          rw [hval]
          exact ⟨rfl, hrest⟩

end Decimal

namespace Outcome

open Decimal

-- ================================================================ faces

/-- Behind the first of some texts, each of the others stands behind a
separator. -/
theorem intercalate_cons (separator first : List Char)
    (others : List (List Char)) :
    separator.intercalate (first :: others)
      = first ++ others.flatMap (separator ++ ·) := by
  induction others generalizing first with
  | nil => rw [List.intercalate_singleton, List.flatMap_nil, List.append_nil]
  | cons next others ih =>
      rw [List.intercalate_cons_cons, ih, List.flatMap_cons,
        List.append_assoc, List.append_assoc]

/-- The faces behind a first one, up to the closing bracket. -/
def moreFaces (faces : List UInt32) : List Char :=
  faces.flatMap fun face => [',', ' '] ++ Decimal.ofNat face.toNat

theorem writtenFaces_cons_append (face : UInt32) (faces : List UInt32)
    (rest : List Char) :
    writtenFaces (face :: faces) ++ rest
      = '[' :: (Decimal.ofNat face.toNat
        ++ (moreFaces faces ++ ']' :: rest)) := by
  unfold writtenFaces
  rw [List.map_cons, intercalate_cons, List.flatMap_map]
  simp only [List.cons_append, List.append_assoc, List.nil_append]
  rfl

/-- Behind a face stands a comma or the closing bracket. -/
theorem noDigitAhead_moreFaces (faces : List UInt32) (rest : List Char) :
    NoDigitAhead (moreFaces faces ++ ']' :: rest) := by
  cases faces with
  | nil => exact noDigitAhead_cons rfl _
  | cons face faces => exact noDigitAhead_cons (c := ',') rfl _

/-- A face in front of others is told from all behind it. -/
theorem eq_of_face_append {face other : UInt32}
    {faces others : List UInt32} {rest more : List Char}
    (h : Decimal.ofNat face.toNat ++ (moreFaces faces ++ ']' :: rest)
      = Decimal.ofNat other.toNat ++ (moreFaces others ++ ']' :: more)) :
    face = other
      ∧ moreFaces faces ++ ']' :: rest = moreFaces others ++ ']' :: more := by
  obtain ⟨hface, hothers⟩ := toldApart_ofNat
    (noDigitAhead_moreFaces faces rest)
    (noDigitAhead_moreFaces others more) h
  exact ⟨UInt32.toNat_inj.1 hface, hothers⟩

/-- The faces behind a first one end at the first bracket. -/
theorem eq_of_moreFaces_append {faces others : List UInt32}
    {rest more : List Char}
    (h : moreFaces faces ++ ']' :: rest = moreFaces others ++ ']' :: more) :
    faces = others ∧ rest = more := by
  induction faces generalizing others with
  | nil =>
      cases others with
      | nil =>
          injection h with _ hrest
          exact ⟨rfl, hrest⟩
      | cons other others => cases h
  | cons face faces ih =>
      cases others with
      | nil => cases h
      | cons other others =>
          unfold moreFaces at h
          simp only [List.flatMap_cons, List.append_assoc] at h
          obtain ⟨rfl, hothers⟩ :=
            eq_of_face_append (List.append_cancel_left h)
          obtain ⟨rfl, hrest⟩ := ih hothers
          exact ⟨rfl, hrest⟩

/-- Faces are told apart, whatever follows the bracket. -/
theorem toldApart_writtenFaces :
    ToldApart writtenFaces fun _ => True := by
  intro faces others rest more _ _ h
  cases faces with
  | nil =>
      cases others with
      | nil =>
          injection h with _ h
          injection h with _ hrest
          exact ⟨rfl, hrest⟩
      | cons other others =>
          -- a bracket that closes at once against a digit
          rw [writtenFaces_cons_append] at h
          injection h with _ h
          exact absurd h.symm (ofNat_append_ne rfl _ _ _)
  | cons face faces =>
      rw [writtenFaces_cons_append] at h
      cases others with
      | nil =>
          injection h with _ h
          exact absurd h (ofNat_append_ne rfl _ _ _)
      | cons other others =>
          rw [writtenFaces_cons_append] at h
          injection h with _ h
          obtain ⟨rfl, hothers⟩ := eq_of_face_append h
          obtain ⟨rfl, hrest⟩ := eq_of_moreFaces_append hothers
          exact ⟨rfl, hrest⟩

-- =============================================================== groups

/-- What may follow a group: a joint or the total, both behind a
blank. -/
def FollowsGroup (rest : List Char) : Prop :=
  ∃ more, rest = ' ' :: '&' :: more ∨ rest = ' ' :: '=' :: more

/-- The bonus of a group behind its faces. -/
def bonusBehind (bonus : Int32) : List Char :=
  if bonus = 0 then [] else ' ' :: writtenBonus bonus

theorem writtenGroup_eq (faces : List UInt32) (bonus : Int32) :
    writtenGroup faces bonus = writtenFaces faces ++ bonusBehind bonus := by
  unfold writtenGroup bonusBehind
  split
  · rw [List.append_nil]
  · rfl

/-- A bonus that is not zero is its sign and then its size. -/
theorem writtenBonus_eq {bonus : Int32} (h : bonus ≠ 0) :
    writtenBonus bonus
      = (if 0 < bonus then '+' else '-')
        :: Decimal.ofNat bonus.toInt.natAbs := by
  have hne : bonus.toInt ≠ 0 := fun hzero => h (Int32.toInt_inj.1 hzero)
  unfold writtenBonus
  rw [if_neg h]
  by_cases hpos : 0 < bonus
  · have hint : 0 < bonus.toInt := Int32.lt_iff_toInt_lt.1 hpos
    obtain ⟨n, hn⟩ := Int.eq_ofNat_of_zero_le (Int.le_of_lt hint)
    rw [if_pos hpos, if_pos hpos, hn]
    rfl
  · have hle : ¬ 0 < bonus.toInt :=
      fun hint => hpos (Int32.lt_iff_toInt_lt.2 hint)
    obtain ⟨n, hn⟩ :=
      Int.eq_negSucc_of_lt_zero (by omega : bonus.toInt < 0)
    rw [if_neg hpos, if_neg hpos, hn]
    rfl

/-- Bonuses of one sign and one size are the same. -/
theorem eq_of_sign_of_size {a b : Int32}
    (hsign : (if 0 < a then '+' else '-') = if 0 < b then '+' else '-')
    (hsize : a.toInt.natAbs = b.toInt.natAbs) : a = b := by
  have hzero : (0 : Int32).toInt = 0 := rfl
  have hsame : 0 < a ↔ 0 < b := by
    by_cases hpos : 0 < a
    · by_cases hpos' : 0 < b
      · exact iff_of_true hpos hpos'
      · rw [if_pos hpos, if_neg hpos'] at hsign
        cases hsign
    · by_cases hpos' : 0 < b
      · rw [if_neg hpos, if_pos hpos'] at hsign
        cases hsign
      · exact iff_of_false hpos hpos'
  rw [Int32.lt_iff_toInt_lt, Int32.lt_iff_toInt_lt, hzero] at hsame
  apply Int32.toInt_inj.1
  omega

theorem FollowsGroup.noDigitAhead {rest : List Char}
    (h : FollowsGroup rest) : NoDigitAhead rest := by
  obtain ⟨more, rfl | rfl⟩ := h
  · exact noDigitAhead_cons rfl _
  · exact noDigitAhead_cons rfl _

/-- What follows a group has no sign behind its blank. -/
theorem FollowsGroup.ne_bonus {rest : List Char} (h : FollowsGroup rest)
    {bonus : Int32} (hbonus : bonus ≠ 0) (more : List Char) :
    rest ≠ ' ' :: writtenBonus bonus ++ more := by
  intro heq
  rw [writtenBonus_eq hbonus] at heq
  obtain ⟨behind, rfl | rfl⟩ := h
  · injection heq with _ heq
    injection heq with hsign
    split at hsign <;> cases hsign
  · injection heq with _ heq
    injection heq with hsign
    split at hsign <;> cases hsign

theorem toldApart_bonusBehind : ToldApart bonusBehind FollowsGroup := by
  intro a b rest more hrest hmore h
  unfold bonusBehind at h
  by_cases ha : a = 0
  · by_cases hb : b = 0
    · rw [if_pos ha, if_pos hb] at h
      exact ⟨ha.trans hb.symm, h⟩
    · rw [if_pos ha, if_neg hb] at h
      exact absurd h (hrest.ne_bonus hb _)
  · by_cases hb : b = 0
    · rw [if_neg ha, if_pos hb] at h
      exact absurd h.symm (hmore.ne_bonus ha _)
    · rw [if_neg ha, if_neg hb, writtenBonus_eq ha, writtenBonus_eq hb] at h
      injection h with _ h
      injection h with hsign h
      obtain ⟨hsize, hrest⟩ :=
        toldApart_ofNat hrest.noDigitAhead hmore.noDigitAhead h
      exact ⟨eq_of_sign_of_size hsign hsize, hrest⟩

/-- Groups are told apart: first by their faces, then by their
bonuses. -/
theorem toldApart_writtenGroup :
    ToldApart (fun group : List UInt32 × Int32 =>
      writtenGroup group.1 group.2) FollowsGroup := by
  intro a b rest more hrest hmore h
  simp only [writtenGroup_eq, List.append_assoc] at h
  obtain ⟨hfaces, h⟩ := toldApart_writtenFaces trivial trivial h
  obtain ⟨hbonus, hrest⟩ := toldApart_bonusBehind hrest hmore h
  exact ⟨Prod.ext hfaces hbonus, hrest⟩

-- ========================================================== whole texts

/-- Groups, each behind a joint. -/
def jointGroups (groups : List (List UInt32 × Int32)) : List Char :=
  groups.flatMap fun group => Die.joint ++ writtenGroup group.1 group.2

theorem jointGroups_cons (group : List UInt32 × Int32)
    (groups : List (List UInt32 × Int32)) (rest : List Char) :
    jointGroups (group :: groups) ++ rest
      = Die.joint ++ (writtenGroup group.1 group.2
        ++ (jointGroups groups ++ rest)) := by
  simp [jointGroups]

/-- The total, as it stands behind the groups. -/
def totalBehind (total : Int64) : List Char :=
  [' ', '=', ' '] ++ Decimal.ofInt total.toInt

/-- Behind a group stands the joint of the next one, or the total. -/
theorem followsGroup_jointGroups (groups : List (List UInt32 × Int32))
    (total : Int64) :
    FollowsGroup (jointGroups groups ++ totalBehind total) := by
  cases groups with
  | nil => exact ⟨_, .inr rfl⟩
  | cons group groups =>
      rw [jointGroups_cons]
      exact ⟨_, .inl rfl⟩

/-- Groups in front of a total are told, and so is the total. -/
theorem eq_of_jointGroups {groups others : List (List UInt32 × Int32)}
    {total sum : Int64}
    (h : jointGroups groups ++ totalBehind total
      = jointGroups others ++ totalBehind sum) :
    groups = others ∧ total = sum := by
  induction groups generalizing others with
  | nil =>
      cases others with
      | nil =>
          have hnumeral := List.append_cancel_left
            (List.append_cancel_left h)
          obtain ⟨hvalue, -⟩ := toldApart_ofInt noDigitAhead_nil
            noDigitAhead_nil (congrArg (· ++ []) hnumeral)
          exact ⟨rfl, Int64.toInt_inj.1 hvalue⟩
      | cons other others =>
          -- the equals sign against an ampersand
          rw [jointGroups_cons] at h
          injection h with _ h
          cases h
  | cons group groups ih =>
      rw [jointGroups_cons] at h
      cases others with
      | nil =>
          injection h with _ h
          cases h
      | cons other others =>
          rw [jointGroups_cons] at h
          obtain ⟨rfl, hothers⟩ := toldApart_writtenGroup
            (followsGroup_jointGroups groups total)
            (followsGroup_jointGroups others sum)
            (List.append_cancel_left h)
          obtain ⟨rfl, rfl⟩ := ih hothers
          exact ⟨rfl, rfl⟩

/-- The text of an outcome behind a joint: all of its groups are then
written alike. -/
theorem joint_append_written (outcome : Outcome) :
    Die.joint ++ outcome.written
      = jointGroups outcome.groups ++ totalBehind outcome.total := by
  unfold written
  rw [writtenOnto_eq, ← List.append_assoc, joint_append_writtenOnto]
  rfl

/-- Outcomes have the same text exactly if they have the same groups,
with their faces and bonuses, left to right, and the same total. -/
theorem toString_eq_iff (a b : Outcome) :
    a.toString = b.toString ↔ a.groups = b.groups ∧ a.total = b.total := by
  constructor
  · intro h
    have hwritten : a.written = b.written := String.ofList_injective h
    have hjoint := congrArg (Die.joint ++ ·) hwritten
    simp only [joint_append_written] at hjoint
    exact eq_of_jointGroups hjoint
  · intro h
    obtain ⟨hgroups, htotal⟩ := h
    unfold toString
    rw [written_congr hgroups htotal]

/-- Brackets and inner totals are all that is lost. -/
example : (Outcome.join (.join (.group [] 3 7) (.group [2] 0 2) 0)
      (.group [0, 1] (-1) 0) (-5)).toString
    = (Outcome.join (.group [] 3 0) (.join (.group [2] 0 9)
      (.group [0, 1] (-1) 4) 1) (-5)).toString := by
  decide +kernel

end Outcome

end DiceNotation
