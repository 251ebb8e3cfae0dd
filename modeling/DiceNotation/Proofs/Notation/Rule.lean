/-
When a rule of the notation succeeds, and with what. Each rule is said
once, as the reads it is made of: a rule gives a value and a rest
exactly when its parts do, one behind the other. Whoever reasons about a
rule takes it apart, or puts a run of it together, with these
equivalences and never opens the rule itself.

The optional parts show here as two cases, and the two cases exclude
each other: an absent part is one whose reader found nothing, so a
number out of its bounds is no absent number.
-/
import DiceNotation.Proofs.Notation.Chain
import DiceNotation.Proofs.Word

namespace DiceNotation.Grammar

open Reader

-- =============================================================== group

theorem count_eq_some_iff {text rest : List Char} {n : Positive} :
    count text = some (n, rest)
      ↔ (unsigned text = some (n.val, rest) ∧ n.val ≤ maxCount)
        ∨ (unsigned text = none ∧ n = .one ∧ rest = text) := by
  unfold count
  rw [checked_eq_some_iff]
  simp only [Positive.atMost?_eq_some_iff, Option.some.injEq,
    eq_comm (a := Positive.one)]
  refine or_congr_left ⟨?_, ?_⟩
  · intro h
    obtain ⟨w, hread, rfl, hle⟩ := h
    exact ⟨hread, hle⟩
  · intro h
    exact ⟨n.val, h.1, rfl, h.2⟩

theorem sides_eq_some_iff {text rest : List Char} {n : Positive} :
    sides text = some (n, rest) ↔ unsigned text = some (n.val, rest) := by
  unfold sides
  rw [checked_eq_some_iff]
  simp only [Positive.ofWord?_eq_some_iff, reduceCtorEq, false_and,
    and_false, or_false]
  constructor
  · intro h
    obtain ⟨w, hread, rfl⟩ := h
    exact hread
  · intro h
    exact ⟨n.val, h, rfl⟩

theorem bonus_eq_some_iff {text rest : List Char} {n : Int32} :
    bonus text = some (n, rest)
      ↔ signed text = some (n.toInt, rest)
        ∨ (signed text = none ∧ n = 0 ∧ rest = text) := by
  unfold bonus
  rw [checked_eq_some_iff]
  simp only [Word.signed32?_eq_some_iff, Option.some.injEq,
    eq_comm (a := (0 : Int32))]
  refine or_congr_left ⟨?_, ?_⟩
  · intro h
    obtain ⟨v, hread, rfl⟩ := h
    exact hread
  · intro h
    exact ⟨n.toInt, h, rfl⟩

theorem group_eq_some_iff {text rest : List Char} {g : Group} :
    group text = some (g, rest)
      ↔ ∃ t₁ t₂ t₃, count text = some (g.count, t₁)
        ∧ letter 'd' t₁ = some ((), t₂)
        ∧ sides t₂ = some (g.sides, t₃)
        ∧ bonus t₃ = some (g.bonus, rest) := by
  unfold group
  simp only [andThen_eq_some_iff]
  constructor
  · intro h
    obtain ⟨n, t₁, hcount, _, t₂, hletter, s, t₃, hsides, b, t₄, hbonus,
      hgroup⟩ := h
    cases hgroup
    exact ⟨t₁, t₂, t₃, hcount, hletter, hsides, hbonus⟩
  · intro h
    obtain ⟨t₁, t₂, t₃, hcount, hletter, hsides, hbonus⟩ := h
    exact ⟨_, t₁, hcount, _, t₂, hletter, _, t₃, hsides, _, rest, hbonus,
      rfl⟩

-- ================================================================= die

theorem moreGroups_eq_some_iff {room : Nat} {text rest : List Char}
    {others : List Group} :
    moreGroups room text = some (others, rest)
      ↔ (letter '&' text = none ∧ others = [] ∧ rest = text)
        ∨ ∃ left t₁ g t₂ more, room = left + 1
          ∧ letter '&' text = some ((), t₁)
          ∧ group t₁ = some (g, t₂)
          ∧ moreGroups left t₂ = some (more, rest)
          ∧ others = g :: more := by
  constructor
  · intro h
    unfold moreGroups at h
    split at h
    · next hletter =>
        cases h
        exact Or.inl ⟨hletter, rfl, rfl⟩
    · next t₁ hletter =>
        split at h
        · cases h
        · next left =>
            split at h
            · cases h
            · next g t₂ hgroup =>
                split at h
                · cases h
                · next more after hmore =>
                    cases h
                    exact Or.inr ⟨left, t₁, g, t₂, more, rfl, hletter,
                      hgroup, hmore, rfl⟩
  · intro h
    obtain ⟨hletter, rfl, rfl⟩
      | ⟨left, t₁, g, t₂, more, rfl, hletter, hgroup, hmore, rfl⟩ := h
    · unfold moreGroups
      rw [hletter]
    · unfold moreGroups
      rw [hletter]
      simp only [hgroup, hmore]

theorem dieAfter_eq_some_iff {first : Die} {text rest : List Char}
    {d : Die} :
    dieAfter first text = some (d, rest)
      ↔ ∃ more, moreGroups (maxGroups - 1) text = some (more, rest)
        ∧ d = first.chain more := by
  rw [dieAfter_eq, Option.map_eq_some_iff]
  constructor
  · intro h
    obtain ⟨⟨more, after⟩, hmore, heq⟩ := h
    cases heq
    exact ⟨more, hmore, rfl⟩
  · intro h
    obtain ⟨more, hmore, rfl⟩ := h
    exact ⟨(more, rest), hmore, rfl⟩

theorem die_eq_some_iff {text rest : List Char} {d : Die} :
    die text = some (d, rest)
      ↔ ∃ g t₁ more, group text = some (g, t₁)
        ∧ moreGroups (maxGroups - 1) t₁ = some (more, rest)
        ∧ d = (Die.group g).chain more := by
  unfold die
  simp only [andThen_eq_some_iff, dieAfter_eq_some_iff, exists_and_left]

-- ================================================================ roll

theorem repeatCount_eq_some_iff {text rest : List Char} {n : Positive} :
    repeatCount text = some (n, rest)
      ↔ (∃ t₁, unsigned text = some (n.val, t₁)
          ∧ letter 'x' t₁ = some ((), rest) ∧ n.val ≤ maxRepeat)
        ∨ ((∀ w t₁, unsigned text = some (w, t₁) → letter 'x' t₁ = none)
          ∧ n = .one ∧ rest = text) := by
  unfold repeatCount
  cases hread : unsigned text with
  | none => simp [eq_comm]
  | some found =>
      obtain ⟨w, t₁⟩ := found
      cases hletter : letter 'x' t₁ with
      | none =>
          simp only [hletter]
          constructor
          · intro h
            cases h
            refine Or.inr ⟨?_, rfl, rfl⟩
            intro w' t' heq
            cases heq
            exact hletter
          · intro h
            obtain ⟨t', heq, hsome, -⟩ | ⟨-, rfl, rfl⟩ := h
            · cases heq
              rw [hletter] at hsome
              cases hsome
            · rfl
      | some found =>
          obtain ⟨⟨⟩, t₂⟩ := found
          simp only [hletter, Option.map_eq_some_iff, Prod.mk.injEq]
          constructor
          · intro h
            obtain ⟨p, hp, rfl, rfl⟩ := h
            obtain ⟨rfl, hle⟩ := Positive.atMost?_eq_some_iff.1 hp
            exact Or.inl ⟨t₁, rfl, hletter, hle⟩
          · intro h
            obtain ⟨t', heq, hsome, hle⟩ | ⟨hnone, -, -⟩ := h
            · cases heq
              rw [hletter] at hsome
              cases hsome
              exact ⟨n, Positive.atMost?_eq_some_iff.2 ⟨rfl, hle⟩, rfl, rfl⟩
            · have := hnone w t₁ rfl
              rw [hletter] at this
              cases this

theorem roll_eq_some_iff {text rest : List Char} {dice : List Die} :
    roll text = some (dice, rest)
      ↔ ∃ times t₁ d, repeatCount text = some (times, t₁)
        ∧ die t₁ = some (d, rest)
        ∧ dice = List.replicate times.toNat d := by
  unfold roll
  simp only [andThen_eq_some_iff]
  constructor
  · intro h
    obtain ⟨times, t₁, hcount, d, t₂, hdie, hdice⟩ := h
    cases hdice
    exact ⟨times, t₁, d, hcount, hdie, rfl⟩
  · intro h
    obtain ⟨times, t₁, d, hcount, hdie, rfl⟩ := h
    exact ⟨times, t₁, hcount, d, rest, hdie, rfl⟩

-- =========================================================== roll list

theorem moreRolls_eq_some_iff {text rest : List Char}
    {others : List Die} :
    moreRolls text = some (others, rest)
      ↔ (letter ';' text = none ∧ others = [] ∧ rest = text)
        ∨ ∃ t₁ dice t₂ more, letter ';' text = some ((), t₁)
          ∧ roll t₁ = some (dice, t₂)
          ∧ moreRolls t₂ = some (more, rest)
          ∧ others = dice ++ more := by
  rw [moreRolls]
  constructor
  · intro h
    split at h
    · next hsep =>
        cases h
        exact Or.inl ⟨hsep, rfl, rfl⟩
    · next t₁ hsep =>
        split at h
        · cases h
        · next dice t₂ hroll =>
            split at h
            · cases h
            · next more after hmore =>
                cases h
                exact Or.inr ⟨t₁, dice, t₂, more, hsep, hroll, hmore, rfl⟩
  · intro h
    obtain ⟨hsep, rfl, rfl⟩
      | ⟨t₁, dice, t₂, more, hsep, hroll, hmore, rfl⟩ := h
    · split
      · rfl
      · next hsome =>
          rw [hsep] at hsome
          cases hsome
    · split
      · next hnone =>
          rw [hsep] at hnone
          cases hnone
      · next hsome =>
          rw [hsep] at hsome
          cases hsome
          split
          · next hnone =>
              rw [hroll] at hnone
              cases hnone
          · next hsome =>
              rw [hroll] at hsome
              cases hsome
              rw [hmore]

theorem rollList_eq_some_iff {text rest : List Char} {dice : List Die} :
    rollList text = some (dice, rest)
      ↔ ∃ first t₁ more, roll text = some (first, t₁)
        ∧ moreRolls t₁ = some (more, rest) ∧ dice = first ++ more := by
  unfold rollList
  simp only [andThen_eq_some_iff]
  constructor
  · intro h
    obtain ⟨first, t₁, hroll, more, t₂, hmore, hdice⟩ := h
    cases hdice
    exact ⟨first, t₁, more, hroll, hmore, rfl⟩
  · intro h
    obtain ⟨first, t₁, more, hroll, hmore, rfl⟩ := h
    exact ⟨first, t₁, hroll, more, rest, hmore, rfl⟩

end DiceNotation.Grammar
