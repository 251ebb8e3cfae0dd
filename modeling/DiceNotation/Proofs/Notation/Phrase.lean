/-
The grammar of dice notation over tokens, and the readers that follow
it. Each rule is a relation between a row of tokens and what it means;
nothing in it says how a text is read. A reader fits its rule when it is
sound and complete:

- sound: what it read is a phrase of the rule with that meaning, and the
  tokens of the text are those of the phrase and then those of the rest;
- complete: where the tokens of a text start with a phrase of the rule,
  and go on with a token that may follow the rule, it reads the phrase
  and stops right behind it.

# What may follow

A rule ends where an optional part could still come, so completeness
needs to know that it does not come: behind a group stands an ampersand
or a semicolon or nothing, behind a die and a roll a semicolon or
nothing. The grammar has no other choice that looks ahead, except that a
number at the start of a roll may be a repeat count or a count of dice;
the token behind it tells which.
-/
import DiceNotation.Proofs.Notation.Rule
import DiceNotation.Proofs.Notation.Token

namespace DiceNotation

-- ========================================================== the grammar

/-- A count of dice: a number from 1 to 100000, or one without a
number. -/
inductive CountPhrase : List Token → Positive → Prop
  | absent : CountPhrase [] .one
  | given {count : Positive} (bound : count.toNat ≤ 100000) :
      CountPhrase [.number count.toNat] count

/-- A number with or without a sign in front. -/
inductive SignedPhrase : List Token → Int → Prop
  | bare (n : UInt32) : SignedPhrase [.number n.toNat] n.toNat
  | plus (n : UInt32) : SignedPhrase [.plus, .number n.toNat] n.toNat
  | minus (n : UInt32) :
      SignedPhrase [.minus, .number n.toNat] (-(n.toNat : Int))

/-- A bonus: a signed number in the range of a signed word, or zero
without a number. -/
inductive BonusPhrase : List Token → Int32 → Prop
  | absent : BonusPhrase [] 0
  | given {tokens : List Token} {bonus : Int32}
      (number : SignedPhrase tokens bonus.toInt) :
      BonusPhrase tokens bonus

/-- A group: a count, the letter d, the number of sides and a bonus. -/
inductive GroupPhrase : List Token → Group → Prop
  | intro {front back : List Token} {g : Group}
      (count : CountPhrase front g.count)
      (bonus : BonusPhrase back g.bonus) :
      GroupPhrase (front ++ .die :: .number g.sides.toNat :: back) g

/-- Groups with ampersands between them, each joined with all that
follow it. -/
inductive ChainPhrase : List Token → Die → Prop
  | group {tokens : List Token} {g : Group}
      (only : GroupPhrase tokens g) : ChainPhrase tokens (.group g)
  | join {first more : List Token} {g : Group} {die : Die}
      (head : GroupPhrase first g) (tail : ChainPhrase more die) :
      ChainPhrase (first ++ .ampersand :: more) (.join (.group g) die)

/-- A die: a chain of at most 1000 groups. -/
structure DiePhrase (tokens : List Token) (die : Die) : Prop where
  chain : ChainPhrase tokens die
  bound : die.groups.length ≤ 1000

/-- A repeat count: a number from 1 to 1000 before an x, or one without
them. -/
inductive RepeatPhrase : List Token → Positive → Prop
  | absent : RepeatPhrase [] .one
  | given {times : Positive} (bound : times.toNat ≤ 1000) :
      RepeatPhrase [.number times.toNat, .times] times

/-- A roll: a die as many times as its repeat count says. -/
inductive RollPhrase : List Token → List Die → Prop
  | intro {front back : List Token} {times : Positive} {die : Die}
      (count : RepeatPhrase front times) (only : DiePhrase back die) :
      RollPhrase (front ++ back) (List.replicate times.toNat die)

/-- A roll list: rolls with semicolons between them. -/
inductive RollListPhrase : List Token → List Die → Prop
  | last {tokens : List Token} {dice : List Die}
      (only : RollPhrase tokens dice) : RollListPhrase tokens dice
  | more {first rest : List Token} {dice others : List Die}
      (head : RollPhrase first dice)
      (tail : RollListPhrase rest others) :
      RollListPhrase (first ++ .semicolon :: rest) (dice ++ others)

-- =================================================== fitting the rules

open Reader Grammar Token

/-- Whether a row of tokens is at its end or goes on with one of some
tokens. -/
def GoesOn (allowed : List Token) (tokens : List Token) : Prop :=
  ∀ token, tokens.head? = some token → token ∈ allowed

/-- What the reader reads is a phrase, and the row goes on behind it. -/
def Reader.Sound {α : Type} (read : Reader α)
    (Phrase : List Token → α → Prop) : Prop :=
  ∀ ⦃text v rest⦄, read text = some (v, rest) →
    ∃ tokens, Phrase tokens v
      ∧ scan text = (scan rest).map (tokens ++ ·)

/-- A phrase in front of what may follow is read, and no more. -/
def Reader.Complete {α : Type} (read : Reader α)
    (Phrase : List Token → α → Prop) (follow : List Token) : Prop :=
  ∀ ⦃text v tokens more⦄, Phrase tokens v → GoesOn follow more →
    scan text = some (tokens ++ more) →
    ∃ rest, read text = some (v, rest) ∧ scan rest = some more

/-- A row does not go on with a token that is not allowed. -/
theorem GoesOn.head_ne {allowed tokens : List Token} {token : Token}
    (h : GoesOn allowed tokens) (hnot : token ∉ allowed) :
    tokens.head? ≠ some token :=
  fun hhead => hnot (h token hhead)

theorem goesOn_cons {allowed tokens : List Token} {token : Token}
    (h : token ∈ allowed) : GoesOn allowed (token :: tokens) := by
  intro t ht
  cases ht
  exact h

theorem goesOn_nil (allowed : List Token) : GoesOn allowed [] := by
  intro t ht
  cases ht

/-- Two phrases one after the other are read one after the other. -/
theorem scan_append {text middle rest : List Char}
    {first second : List Token}
    (hfirst : scan text = (scan middle).map (first ++ ·))
    (hsecond : scan middle = (scan rest).map (second ++ ·)) :
    scan text = (scan rest).map ((first ++ second) ++ ·) := by
  rw [hfirst, hsecond, Option.map_map]
  congr 1
  funext more
  simp

/-- A token and a phrase after it are read one after the other. -/
theorem scan_prepend {text middle rest : List Char} {token : Token}
    {tokens : List Token}
    (htoken : scan text = (scan middle).map (token :: ·))
    (htokens : scan middle = (scan rest).map (tokens ++ ·)) :
    scan text = (scan rest).map (token :: tokens ++ ·) := by
  rw [htoken, htokens, Option.map_map]
  rfl

-- =============================================================== group

theorem maxCount_toNat : maxCount.toNat = 100000 := rfl

theorem count_sound : Sound count CountPhrase := by
  intro text v rest h
  rcases count_eq_some_iff.1 h with ⟨hread, hle⟩ | ⟨-, rfl, rfl⟩
  · have hbound := UInt32.le_iff_toNat_le.1 hle
    rw [maxCount_toNat] at hbound
    exact ⟨[.number v.toNat], .given hbound, scan_of_unsigned hread⟩
  · exact ⟨[], .absent, by simp⟩

theorem count_complete : Complete count CountPhrase [.die] := by
  intro text v tokens more hphrase hfollow hscan
  cases hphrase with
  | absent =>
      have hnone := unsigned_eq_none_of_scan hscan
        fun n => hfollow.head_ne (by simp)
      exact ⟨text, count_eq_some_iff.2 (Or.inr ⟨hnone, rfl, rfl⟩), hscan⟩
  | given bound =>
      obtain ⟨rest, hread, hrest⟩ := unsigned_of_scan hscan
      have hle : v.val ≤ maxCount := by
        rw [UInt32.le_iff_toNat_le, maxCount_toNat]
        exact bound
      exact ⟨rest, count_eq_some_iff.2 (Or.inl ⟨hread, hle⟩), hrest⟩

theorem signed_sound : Sound signed SignedPhrase := by
  intro text v rest h
  unfold signed at h
  split at h
  · next after hplus =>
      obtain ⟨⟨n, last⟩, hread, heq⟩ := Option.map_eq_some_iff.1 h
      cases heq
      exact ⟨_, .plus n, scan_prepend
        (scan_of_letter rfl hplus) (scan_of_unsigned hread)⟩
  · split at h
    · next after hminus =>
        obtain ⟨⟨n, last⟩, hread, heq⟩ := Option.map_eq_some_iff.1 h
        cases heq
        exact ⟨_, .minus n, scan_prepend
          (scan_of_letter rfl hminus) (scan_of_unsigned hread)⟩
    · obtain ⟨⟨n, last⟩, hread, heq⟩ := Option.map_eq_some_iff.1 h
      cases heq
      exact ⟨_, .bare n, scan_of_unsigned hread⟩

/-- A signed number that the tokens start with is read. -/
theorem signed_of_scan {text : List Char} {n : Int}
    {tokens more : List Token} (hphrase : SignedPhrase tokens n)
    (hscan : scan text = some (tokens ++ more)) :
    ∃ rest, signed text = some (n, rest) ∧ scan rest = some more := by
  cases hphrase with
  | bare n =>
      obtain ⟨rest, hread, hrest⟩ := unsigned_of_scan hscan
      refine ⟨rest, ?_, hrest⟩
      unfold signed
      rw [letter_eq_none_of_scan (e := '+') rfl hscan (by simp),
        letter_eq_none_of_scan (e := '-') rfl hscan (by simp),
        hread]
      rfl
  | plus n =>
      obtain ⟨after, hsign, hafter⟩ := letter_of_scan (e := '+') rfl hscan
      obtain ⟨rest, hread, hrest⟩ := unsigned_of_scan hafter
      refine ⟨rest, ?_, hrest⟩
      unfold signed
      rw [hsign]
      simp only [hread, Option.map_some]
  | minus n =>
      obtain ⟨after, hsign, hafter⟩ := letter_of_scan (e := '-') rfl hscan
      obtain ⟨rest, hread, hrest⟩ := unsigned_of_scan hafter
      refine ⟨rest, ?_, hrest⟩
      unfold signed
      rw [letter_eq_none_of_scan (e := '+') rfl hscan (by simp),
        hsign]
      simp only [hread, Option.map_some]

/-- Where neither a sign nor a number comes first, no signed number is
read. -/
theorem signed_eq_none_of_scan {text : List Char} {tokens : List Token}
    (hscan : scan text = some tokens)
    (hfollow : GoesOn [.ampersand, .semicolon] tokens) :
    signed text = none := by
  unfold signed
  rw [letter_eq_none_of_scan (e := '+') rfl hscan
      (hfollow.head_ne (by simp)),
    letter_eq_none_of_scan (e := '-') rfl hscan
      (hfollow.head_ne (by simp)),
    unsigned_eq_none_of_scan hscan fun n => hfollow.head_ne (by simp)]
  rfl

theorem bonus_sound : Sound bonus BonusPhrase := by
  intro text v rest h
  rcases bonus_eq_some_iff.1 h with hread | ⟨-, rfl, rfl⟩
  · obtain ⟨tokens, hphrase, hscan⟩ := signed_sound hread
    exact ⟨tokens, .given hphrase, hscan⟩
  · exact ⟨[], .absent, by simp⟩

theorem bonus_complete :
    Complete bonus BonusPhrase [.ampersand, .semicolon] := by
  intro text v tokens more hphrase hfollow hscan
  cases hphrase with
  | absent =>
      have hnone := signed_eq_none_of_scan hscan hfollow
      exact ⟨text, bonus_eq_some_iff.2 (Or.inr ⟨hnone, rfl, rfl⟩), hscan⟩
  | given number =>
      obtain ⟨rest, hread, hrest⟩ := signed_of_scan number hscan
      exact ⟨rest, bonus_eq_some_iff.2 (Or.inl hread), hrest⟩

theorem group_sound : Sound group GroupPhrase := by
  intro text g rest h
  obtain ⟨t₁, t₂, t₃, hcount, hletter, hsides, hbonus⟩ :=
    group_eq_some_iff.1 h
  obtain ⟨front, hfront, hscanFront⟩ := count_sound hcount
  obtain ⟨back, hback, hscanBack⟩ := bonus_sound hbonus
  have hscanSides := scan_of_unsigned (sides_eq_some_iff.1 hsides)
  have hscanLetter := scan_of_letter (e := 'd') rfl hletter
  exact ⟨_, .intro hfront hback, scan_append hscanFront
    (scan_prepend hscanLetter (scan_prepend hscanSides hscanBack))⟩

theorem group_complete :
    Complete group GroupPhrase [.ampersand, .semicolon] := by
  intro text g tokens more hphrase hfollow hscan
  obtain ⟨hfront, hback⟩ := hphrase
  rw [List.append_assoc] at hscan
  obtain ⟨t₁, hcount, hscan₁⟩ := count_complete hfront
    (goesOn_cons (by simp)) hscan
  obtain ⟨t₂, hletter, hscan₂⟩ := letter_of_scan (e := 'd') rfl hscan₁
  obtain ⟨t₃, hread, hscan₃⟩ :=
    unsigned_of_scan (n := g.sides.val) hscan₂
  obtain ⟨rest, hbonus, hrest⟩ := bonus_complete hback hfollow hscan₃
  exact ⟨rest, group_eq_some_iff.2 ⟨t₁, t₂, t₃, hcount, hletter,
    sides_eq_some_iff.2 hread, hbonus⟩, hrest⟩

-- ================================================================= die

/-- What follows a longer rule may follow a shorter one. -/
theorem GoesOn.mono {allowed larger tokens : List Token}
    (h : GoesOn allowed tokens) (hsub : allowed ⊆ larger) :
    GoesOn larger tokens :=
  fun token hhead => hsub (h token hhead)

theorem Die.groups_ne_nil (die : Die) : die.groups ≠ [] := by
  induction die with
  | group g => simp
  | join left right ihl ihr => simp [ihl]

/-- The groups behind a first one make a chain with it, and there are no
more of them than there is room for. -/
theorem moreGroups_sound {room : Nat} :
    ∀ {text rest : List Char} {others : List Group},
      moreGroups room text = some (others, rest) →
      others.length ≤ room
        ∧ ∃ tokens, scan text = (scan rest).map (tokens ++ ·)
          ∧ ∀ first g, GroupPhrase first g →
            ChainPhrase (first ++ tokens) ((Die.group g).chain others) := by
  induction room with
  | zero =>
      intro text rest others h
      obtain ⟨-, rfl, rfl⟩ | ⟨_, _, _, _, _, hroom, -⟩ :=
        moreGroups_eq_some_iff.1 h
      · refine ⟨Nat.zero_le _, [], by simp, fun first g hg => ?_⟩
        rw [List.append_nil]
        exact .group hg
      · cases hroom
  | succ room ih =>
      intro text rest others h
      obtain ⟨-, rfl, rfl⟩
        | ⟨left, t₁, next, t₂, more, hroom, hletter, hgroup, hmore, rfl⟩ :=
        moreGroups_eq_some_iff.1 h
      · refine ⟨Nat.zero_le _, [], by simp, fun first g hg => ?_⟩
        rw [List.append_nil]
        exact .group hg
      · cases hroom
        obtain ⟨hlen, tail, hscanTail, hchain⟩ := ih hmore
        obtain ⟨front, hfront, hscanFront⟩ := group_sound hgroup
        have hscanLetter := scan_of_letter (e := '&') rfl hletter
        refine ⟨Nat.succ_le_succ hlen, _,
          scan_prepend hscanLetter (scan_append hscanFront hscanTail),
          fun first g hg => ?_⟩
        exact .join hg (hchain front next hfront)

/-- A chain in front of what may follow is read group by group. -/
theorem chain_complete {tokens : List Token} {die : Die}
    (hphrase : ChainPhrase tokens die) :
    ∀ {room : Nat} {text : List Char} {more : List Token},
      die.groups.length ≤ room + 1 → GoesOn [.semicolon] more →
      scan text = some (tokens ++ more) →
      ∃ g middle others rest, group text = some (g, middle)
        ∧ moreGroups room middle = some (others, rest)
        ∧ scan rest = some more ∧ (Die.group g).chain others = die := by
  induction hphrase with
  | @group tokens g only =>
      intro room text more _ hfollow hscan
      obtain ⟨middle, hgroup, hmiddle⟩ :=
        group_complete only (hfollow.mono (by simp)) hscan
      have hnone := letter_eq_none_of_scan (e := '&') rfl hmiddle
        (hfollow.head_ne (by simp))
      exact ⟨g, middle, [], middle, hgroup,
        moreGroups_eq_some_iff.2 (Or.inl ⟨hnone, rfl, rfl⟩), hmiddle, rfl⟩
  | @join first tail g die head _ ih =>
      intro room text more hlen hfollow hscan
      rw [List.append_assoc] at hscan
      obtain ⟨middle, hgroup, hmiddle⟩ :=
        group_complete head (goesOn_cons (by simp)) hscan
      obtain ⟨after, hletter, hafter⟩ :=
        letter_of_scan (e := '&') rfl hmiddle
      have hpos := List.length_pos_iff.2 die.groups_ne_nil
      simp only [Die.groups_join, Die.groups_group, List.length_append,
        List.length_singleton] at hlen
      obtain ⟨room, rfl⟩ : ∃ r, room = r + 1 := ⟨room - 1, by omega⟩
      have hroom : die.groups.length ≤ room + 1 := by omega
      obtain ⟨g', middle', others, rest, hgroup', hmore, hrest, hdie⟩ :=
        ih hroom hfollow hafter
      refine ⟨g, middle, g' :: others, rest, hgroup, ?_, hrest, ?_⟩
      · exact moreGroups_eq_some_iff.2 (Or.inr ⟨room, after, g', middle',
          others, rfl, hletter, hgroup', hmore, rfl⟩)
      · rw [Die.chain, hdie]

theorem die_sound : Sound die DiePhrase := by
  intro text d rest h
  obtain ⟨g, t₁, others, hgroup, hmore, rfl⟩ := die_eq_some_iff.1 h
  obtain ⟨first, hfirst, hscanFirst⟩ := group_sound hgroup
  obtain ⟨hlen, tail, hscanTail, hchain⟩ := moreGroups_sound hmore
  refine ⟨first ++ tail, ⟨hchain first g hfirst, ?_⟩,
    scan_append hscanFirst hscanTail⟩
  rw [Die.groups_chain, Die.groups_group, List.length_append,
    List.length_singleton]
  unfold maxGroups at hlen
  omega

theorem die_complete : Complete die DiePhrase [.semicolon] := by
  intro text d tokens more hphrase hfollow hscan
  have hroom : d.groups.length ≤ maxGroups - 1 + 1 := hphrase.bound
  obtain ⟨g, middle, others, rest, hgroup, hmore, hrest, hdie⟩ :=
    chain_complete hphrase.chain hroom hfollow hscan
  exact ⟨rest, die_eq_some_iff.2 ⟨g, middle, others, hgroup, hmore,
    hdie.symm⟩, hrest⟩

-- ================================================================ roll

theorem maxRepeat_toNat : maxRepeat.toNat = 1000 := rfl

theorem repeatCount_sound : Sound repeatCount RepeatPhrase := by
  intro text v rest h
  rcases repeatCount_eq_some_iff.1 h with
    ⟨t₁, hread, hletter, hle⟩ | ⟨-, rfl, rfl⟩
  · have hbound := UInt32.le_iff_toNat_le.1 hle
    rw [maxRepeat_toNat] at hbound
    have hscanLetter := scan_of_letter (e := 'x') rfl hletter
    exact ⟨[.number v.toNat, .times], .given hbound,
      scan_prepend (scan_of_unsigned hread) hscanLetter⟩
  · exact ⟨[], .absent, by simp⟩

/-- A count is nothing or one number. -/
theorem CountPhrase.tokens_eq {tokens : List Token} {count : Positive}
    (h : CountPhrase tokens count) :
    tokens = [] ∨ ∃ n : UInt32, tokens = [.number n.toNat] := by
  cases h with
  | absent => exact Or.inl rfl
  | given bound => exact Or.inr ⟨count.val, rfl⟩

/-- A die starts with the letter d, or with a count and the letter. -/
theorem DiePhrase.starts {tokens : List Token} {die : Die}
    (h : DiePhrase tokens die) :
    (∃ more, tokens = .die :: more)
      ∨ ∃ (n : UInt32) (more : List Token),
        tokens = .number n.toNat :: .die :: more := by
  have hgroup : ∃ first more g, tokens = first ++ more
      ∧ GroupPhrase first g := by
    cases h.chain with
    | group only => exact ⟨tokens, [], _, by simp, only⟩
    | join head tail => exact ⟨_, _, _, rfl, head⟩
  obtain ⟨first, more, g, rfl, ⟨hcount, -⟩⟩ := hgroup
  obtain rfl | ⟨n, rfl⟩ := hcount.tokens_eq
  · exact Or.inl ⟨_, rfl⟩
  · exact Or.inr ⟨n, _, rfl⟩

/-- In front of a die no repeat count is read but the one that is
there. -/
theorem repeatCount_complete {text : List Char} {times : Positive}
    {front back more : List Token} {die : Die}
    (hcount : RepeatPhrase front times) (hdie : DiePhrase back die)
    (hscan : scan text = some (front ++ (back ++ more))) :
    ∃ rest, repeatCount text = some (times, rest)
      ∧ scan rest = some (back ++ more) := by
  cases hcount with
  | absent =>
      refine ⟨text, repeatCount_eq_some_iff.2
        (Or.inr ⟨fun w t₁ hread => ?_, rfl, rfl⟩), hscan⟩
      obtain ⟨tail, rfl⟩ | ⟨n, tail, rfl⟩ := hdie.starts
      · rw [unsigned_eq_none_of_scan hscan (by simp)] at hread
        cases hread
      · obtain ⟨rest, hread', hrest⟩ := unsigned_of_scan hscan
        rw [hread'] at hread
        cases hread
        exact letter_eq_none_of_scan (e := 'x') rfl hrest (by simp)
  | given bound =>
      obtain ⟨t₁, hread, hscan₁⟩ := unsigned_of_scan hscan
      obtain ⟨rest, hletter, hrest⟩ := letter_of_scan (e := 'x') rfl hscan₁
      have hle : times.val ≤ maxRepeat := by
        rw [UInt32.le_iff_toNat_le, maxRepeat_toNat]
        exact bound
      exact ⟨rest, repeatCount_eq_some_iff.2
        (Or.inl ⟨t₁, hread, hletter, hle⟩), hrest⟩

theorem roll_sound : Sound roll RollPhrase := by
  intro text dice rest h
  obtain ⟨times, t₁, d, hcount, hdie, rfl⟩ := roll_eq_some_iff.1 h
  obtain ⟨front, hfront, hscanFront⟩ := repeatCount_sound hcount
  obtain ⟨back, hback, hscanBack⟩ := die_sound hdie
  exact ⟨_, .intro hfront hback, scan_append hscanFront hscanBack⟩

theorem roll_complete : Complete roll RollPhrase [.semicolon] := by
  intro text dice tokens more hphrase hfollow hscan
  obtain ⟨hcount, hdie⟩ := hphrase
  rw [List.append_assoc] at hscan
  obtain ⟨t₁, hreadCount, hscan₁⟩ :=
    repeatCount_complete hcount hdie hscan
  obtain ⟨rest, hreadDie, hrest⟩ := die_complete hdie hfollow hscan₁
  exact ⟨rest, roll_eq_some_iff.2 ⟨_, t₁, _, hreadCount, hreadDie, rfl⟩,
    hrest⟩

-- =========================================================== roll list

/-- The rolls behind a first one make a list with it. The induction is
on the text, which each roll makes shorter. -/
theorem moreRolls_sound {text rest : List Char} {others : List Die}
    (h : moreRolls text = some (others, rest)) :
    ∃ tokens, scan text = (scan rest).map (tokens ++ ·)
      ∧ ∀ first dice, RollPhrase first dice →
        RollListPhrase (first ++ tokens) (dice ++ others) := by
  fun_induction moreRolls text generalizing others rest with
  | case1 text hsep =>
      cases h
      refine ⟨[], by simp, ?_⟩
      intro first dice hfirst
      rw [List.append_nil, List.append_nil]
      exact .last hfirst
  | case2 text afterSep hsep hroll => cases h
  | case3 text afterSep hsep dice afterRoll hroll hmore ih => cases h
  | case4 text afterSep hsep dice afterRoll hroll more last hmore ih =>
      cases h
      obtain ⟨tail, hscanTail, hlist⟩ := ih hmore
      obtain ⟨next, hnext, hscanNext⟩ := roll_sound hroll
      refine ⟨_, scan_prepend (scan_of_letter rfl hsep)
        (scan_append hscanNext hscanTail), ?_⟩
      intro first dice' hfirst
      exact .more hfirst (hlist next dice hnext)

/-- A roll list at the end of the row is read roll by roll. -/
theorem list_complete {tokens : List Token} {dice : List Die}
    (hphrase : RollListPhrase tokens dice) :
    ∀ {text : List Char}, scan text = some tokens →
      ∃ head middle others rest, roll text = some (head, middle)
        ∧ moreRolls middle = some (others, rest)
        ∧ scan rest = some [] ∧ head ++ others = dice := by
  induction hphrase with
  | @last tokens dice only =>
      intro text hscan
      rw [← List.append_nil tokens] at hscan
      obtain ⟨rest, hroll, hrest⟩ :=
        roll_complete only (goesOn_nil _) hscan
      have hnone := letter_eq_none_of_scan (e := ';') rfl hrest (by simp)
      exact ⟨dice, rest, [], rest, hroll,
        moreRolls_eq_some_iff.2 (Or.inl ⟨hnone, rfl, rfl⟩), hrest, by simp⟩
  | @more first tail dice others head _ ih =>
      intro text hscan
      obtain ⟨middle, hroll, hmiddle⟩ :=
        roll_complete head (goesOn_cons (by simp)) hscan
      obtain ⟨after, hletter, hafter⟩ :=
        letter_of_scan (e := ';') rfl hmiddle
      obtain ⟨dice', middle', others', rest, hroll', hmore, hrest, rfl⟩ :=
        ih hafter
      exact ⟨dice, middle, dice' ++ others', rest, hroll,
        moreRolls_eq_some_iff.2 (Or.inr ⟨after, dice', middle', others',
          hletter, hroll', hmore, rfl⟩), hrest, rfl⟩

theorem rollList_sound : Sound rollList RollListPhrase := by
  intro text dice rest h
  obtain ⟨head, t₁, others, hroll, hmore, rfl⟩ := rollList_eq_some_iff.1 h
  obtain ⟨first, hfirst, hscanFirst⟩ := roll_sound hroll
  obtain ⟨tail, hscanTail, hlist⟩ := moreRolls_sound hmore
  exact ⟨_, hlist first head hfirst, scan_append hscanFirst hscanTail⟩

theorem rollList_complete : Complete rollList RollListPhrase [] := by
  intro text dice tokens more hphrase hfollow hscan
  have hmore : more = [] := by
    cases more with
    | nil => rfl
    | cons token more => exact absurd (hfollow token rfl) (by simp)
  subst hmore
  rw [List.append_nil] at hscan
  obtain ⟨head, middle, others, rest, hroll, hmore, hrest, hdice⟩ :=
    list_complete hphrase hscan
  exact ⟨rest, rollList_eq_some_iff.2 ⟨head, middle, others, hroll, hmore,
    hdice.symm⟩, hrest⟩

end DiceNotation
