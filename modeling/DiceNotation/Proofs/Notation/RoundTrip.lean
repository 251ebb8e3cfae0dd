/-
Dice written and read again. The notation of a die does not show how
its groups are nested, and reading nests them to the right; so what
comes back is the right-nested die of the same groups, and the die
itself only if it was nested so. A die past the limits of the notation
can be written all the same, and is then rejected.

# The tokens in between

Writing and reading meet in the tokens of a die (`Die.tokens`): the
notation of a die scans to them (`scan_written`), whatever follows, and
they are a phrase of the grammar if the limits hold
(`diePhrase_tokens`). The other way round, a run of the rules that gets
through these tokens has passed each count and each further group, hence
the limits (`withinLimits_of_die`).

A numeral is followed by no digit anywhere in the notation, which is
what keeps one number from running into the next (`NoDigitAhead`).
-/
import DiceNotation.Die.Notation
import DiceNotation.Proofs.Decimal
import DiceNotation.Proofs.Notation.Limits

namespace DiceNotation

open Token Reader Grammar

-- ============================================================ numerals

/-- The numeral of a 32-bit word is read as the word. -/
theorem readWord_ofNat (n : UInt32) :
    Decimal.readWord (Decimal.ofNat n.toNat) = .ok (n, []) := by
  obtain ⟨hlead, hafter⟩ :=
    digits_append (isDigit_of_mem_ofNat n.toNat) noDigitAhead_nil
  rw [List.append_nil] at hlead hafter
  have hsome : ¬ (Decimal.ofNat n.toNat).isEmpty = true := by
    rw [List.isEmpty_iff]
    exact Nat.toDigits_ne_nil
  unfold Decimal.readWord
  rw [hlead, hafter, Decimal.value_ofNat, if_neg hsome,
    if_pos n.toNat_lt, UInt32.ofNat_toNat]

/-- A numeral is one number, if no digit follows it. -/
theorem scan_ofNat (n : Nat) {text : List Char}
    (htext : NoDigitAhead text) :
    scan (Decimal.ofNat n ++ text) = (scan text).map (.number n :: ·) := by
  have hdigits := isDigit_of_mem_ofNat n
  have hvalue := Decimal.value_ofNat n
  cases hnumeral : Decimal.ofNat n with
  | nil => exact absurd hnumeral Nat.toDigits_ne_nil
  | cons c run =>
      rw [hnumeral] at hdigits hvalue
      have hrun : ∀ d ∈ run, d.isDigit = true := fun d hd =>
        hdigits d (List.mem_cons_of_mem _ hd)
      obtain ⟨hlead, hafter⟩ := digits_append hrun htext
      rw [List.cons_append, scan_digit (hdigits c (List.mem_cons_self ..)),
        hlead, hafter, hvalue]

-- ====================================================== tokens of a die

/-- The tokens of a bonus. -/
def bonusTokens (bonus : Int32) : List Token :=
  if bonus = 0 then []
  else if 0 < bonus then [.plus, .number bonus.toInt.toNat]
  else [.minus, .number (-bonus.toInt).toNat]

/-- The tokens of a group. -/
def Group.tokens (g : Group) : List Token :=
  .number g.count.toNat :: .die :: .number g.sides.toNat
    :: bonusTokens g.bonus

/-- The tokens of a die. -/
def Die.tokens : Die → List Token
  | .group g => g.tokens
  | .join left right => left.tokens ++ .ampersand :: right.tokens

/-- The tokens of groups that stand behind a first one. -/
def moreTokens (groups : List Group) : List Token :=
  groups.flatMap fun g => .ampersand :: g.tokens

/-- A bonus in notation, by the sign of its value. -/
theorem scan_writtenBonus (bonus : Int32) {text : List Char}
    (htext : NoDigitAhead text) :
    NoDigitAhead (writtenBonus bonus ++ text)
      ∧ scan (writtenBonus bonus ++ text)
        = (scan text).map (bonusTokens bonus ++ ·) := by
  unfold writtenBonus bonusTokens
  by_cases hzero : bonus = 0
  · simp [hzero, htext]
  · rw [if_neg hzero, if_neg hzero]
    by_cases hpos : 0 < bonus
    · have hint := Int32.lt_iff_toInt_lt.1 hpos
      rw [if_pos hpos, if_pos hpos]
      obtain ⟨n, hn⟩ := Int.eq_ofNat_of_zero_le (Int.le_of_lt hint)
      refine ⟨noDigitAhead_cons rfl _, ?_⟩
      rw [hn]
      show scan ('+' :: (Decimal.ofNat n ++ text)) = _
      rw [scan_char (c := '+') rfl, scan_ofNat n htext,
        Option.map_map]
      rfl
    · rw [if_neg hpos, if_neg hpos]
      have hneg : bonus.toInt < 0 := by
        have hne : bonus.toInt ≠ 0 := fun h => hzero (Int32.toInt_inj.1 h)
        have hle := Int.not_lt.1 fun h => hpos (Int32.lt_iff_toInt_lt.2 h)
        have hzero' : (0 : Int32).toInt = 0 := rfl
        omega
      obtain ⟨n, hn⟩ := Int.eq_negSucc_of_lt_zero hneg
      rw [hn]
      refine ⟨noDigitAhead_cons rfl _, ?_⟩
      show scan ('-' :: (Decimal.ofNat (n + 1) ++ text)) = _
      rw [scan_char (c := '-') rfl, scan_ofNat (n + 1) htext,
        Option.map_map]
      rfl

theorem Group.scan_written (g : Group) {text : List Char}
    (htext : NoDigitAhead text) :
    scan (g.written ++ text) = (scan text).map (g.tokens ++ ·) := by
  obtain ⟨hahead, hbonus⟩ := scan_writtenBonus g.bonus htext
  unfold Group.written
  rw [List.append_assoc, List.append_assoc, List.cons_append]
  calc scan (Decimal.ofNat g.count.toNat ++ 'd'
          :: (Decimal.ofNat g.sides.toNat ++ (writtenBonus g.bonus ++ text)))
      = (scan ('d' :: (Decimal.ofNat g.sides.toNat
          ++ (writtenBonus g.bonus ++ text)))).map
            (.number g.count.toNat :: ·) :=
        scan_ofNat _ (noDigitAhead_cons rfl _)
    _ = (scan text).map (g.tokens ++ ·) := by
        rw [scan_char (c := 'd') rfl, scan_ofNat _ hahead, hbonus,
          Option.map_map, Option.map_map, Option.map_map]
        rfl

theorem Die.scan_written (die : Die) {text : List Char}
    (htext : NoDigitAhead text) :
    scan (die.written ++ text) = (scan text).map (die.tokens ++ ·) := by
  induction die generalizing text with
  | group g =>
      unfold Die.written Die.writtenOnto
      rw [List.append_nil]
      exact g.scan_written htext
  | join left right ihl ihr =>
      have hjoint : scan (joint ++ (right.written ++ text))
          = (scan (right.written ++ text)).map (.ampersand :: ·) := by
        show scan (' ' :: '&' :: ' ' :: (right.written ++ text)) = _
        rw [scan_blank rfl, scan_char (c := '&') rfl,
          scan_blank rfl]
      have hahead : NoDigitAhead (joint ++ (right.written ++ text)) :=
        noDigitAhead_cons (c := ' ') rfl _
      rw [written_join, List.append_assoc, List.append_assoc,
        ihl hahead, hjoint, ihr htext, Option.map_map,
        Option.map_map]
      congr 1
      funext tokens
      simp [Die.tokens]

/-- The tokens of a die are those of its groups, left to right. -/
theorem Die.tokens_eq {die : Die} {g : Group} {more : List Group}
    (h : die.groups = g :: more) :
    die.tokens = g.tokens ++ moreTokens more := by
  have hall : .ampersand :: die.tokens = moreTokens die.groups := by
    clear h
    induction die with
    | group g => simp [Die.tokens, moreTokens]
    | join left right ihl ihr =>
        unfold moreTokens at ihl ihr ⊢
        rw [groups_join, List.flatMap_append, ← ihl, ← ihr]
        simp [Die.tokens]
  rw [h] at hall
  simpa [moreTokens] using hall

-- ====================================================== within limits

/-- The tokens of a bonus are a bonus. -/
theorem bonusPhrase_tokens (bonus : Int32) :
    BonusPhrase (bonusTokens bonus) bonus := by
  have hlow := bonus.le_toInt
  have hhigh := bonus.toInt_lt
  have hword : ∀ n : Nat, n ≤ 2 ^ 31 → (UInt32.ofNat n).toNat = n :=
    fun n hn => UInt32.toNat_ofNat_of_lt'
      (Nat.lt_of_le_of_lt hn (by decide))
  unfold bonusTokens
  by_cases hzero : bonus = 0
  · rw [if_pos hzero, hzero]
    exact .absent
  · rw [if_neg hzero]
    refine .given ?_
    by_cases hpos : 0 < bonus
    · have hint := Int32.lt_iff_toInt_lt.1 hpos
      rw [if_pos hpos]
      have hn := hword bonus.toInt.toNat (by omega)
      have hphrase := SignedPhrase.plus (UInt32.ofNat bonus.toInt.toNat)
      rw [hn, Int.toNat_of_nonneg (Int.le_of_lt hint)] at hphrase
      exact hphrase
    · have hle := Int.not_lt.1 fun h => hpos (Int32.lt_iff_toInt_lt.2 h)
      have hzero' : (0 : Int32).toInt = 0 := rfl
      rw [if_neg hpos]
      have hn := hword (-bonus.toInt).toNat (by omega)
      have hphrase := SignedPhrase.minus (UInt32.ofNat (-bonus.toInt).toNat)
      rw [hn, Int.toNat_of_nonneg (by omega), Int.neg_neg] at hphrase
      exact hphrase

/-- The tokens of a group within the limit are a group. -/
theorem groupPhrase_tokens {g : Group}
    (h : g.count.val ≤ maxCount) : GroupPhrase g.tokens g := by
  have hbound := UInt32.le_iff_toNat_le.1 h
  rw [maxCount_toNat] at hbound
  have hcount : CountPhrase [.number g.count.toNat] g.count := .given hbound
  exact .intro hcount (bonusPhrase_tokens g.bonus)

/-- The tokens of groups within the limit are a chain. -/
theorem chainPhrase_tokens {g : Group} {more : List Group}
    (h : ∀ group ∈ g :: more, group.count.val ≤ maxCount) :
    ChainPhrase (g.tokens ++ moreTokens more)
      ((Die.group g).chain more) := by
  have hg := groupPhrase_tokens (h g (List.mem_cons_self ..))
  induction more generalizing g with
  | nil =>
      unfold moreTokens
      rw [List.flatMap_nil, List.append_nil]
      exact .group hg
  | cons next more ih =>
      have hmore : ∀ group ∈ next :: more, group.count.val ≤ maxCount :=
        fun group hgroup => h group (List.mem_cons_of_mem _ hgroup)
      exact .join hg (ih hmore
        (groupPhrase_tokens (hmore next (List.mem_cons_self ..))))

/-- The tokens of a die within the limits are a die: the right-nested
one of the same groups. -/
theorem Die.diePhrase_tokens {die : Die} (h : die.WithinLimits) :
    ∃ nested : Die, nested.RightNested ∧ nested.groups = die.groups
      ∧ DiePhrase die.tokens nested := by
  obtain ⟨g, more, hgroups⟩ := List.exists_cons_of_ne_nil die.groups_ne_nil
  have hcount := h.count_le
  have hlen := h.groups_le
  have hnested : ((Die.group g).chain more).groups = die.groups := by
    rw [groups_chain, hgroups]
    rfl
  rw [hgroups] at hcount
  refine ⟨(Die.group g).chain more, rightNested_chain g more, hnested,
    ?_, ?_⟩
  · rw [Die.tokens_eq hgroups]
    exact chainPhrase_tokens hcount
  · rw [hnested]
    exact hlen

-- ==================================================== past the limits

/-- A group that is read from its tokens has a count within the limit,
and leaves the tokens behind it. -/
theorem group_of_tokens {text rest : List Char} {g found : Group}
    {others : List Group}
    (hscan : scan text = some (g.tokens ++ moreTokens others))
    (hread : group text = some (found, rest)) :
    g.count.val ≤ maxCount ∧ scan rest = some (moreTokens others) := by
  have hle : g.count.val ≤ maxCount := by
    obtain ⟨after, hunsigned, -⟩ :=
      unsigned_of_scan (n := g.count.val) hscan
    obtain ⟨t₁, -, -, hcount, -⟩ := group_eq_some_iff.1 hread
    rcases count_eq_some_iff.1 hcount with ⟨hfound, hle⟩ | ⟨hnone, -⟩
    · rw [hunsigned] at hfound
      injection hfound with hpair
      injection hpair with hval
      rw [hval]
      exact hle
    · rw [hunsigned] at hnone
      cases hnone
  have hfollow : GoesOn [.ampersand, .semicolon] (moreTokens others) := by
    cases others with
    | nil => exact goesOn_nil _
    | cons _ _ => exact goesOn_cons (by simp)
  obtain ⟨rest', hread', hrest⟩ :=
    group_complete (groupPhrase_tokens hle) hfollow hscan
  rw [hread] at hread'
  cases hread'
  exact ⟨hle, hrest⟩

/-- Groups that are all read from their tokens are no more than there is
room for, and have counts within the limit. -/
theorem limits_of_moreGroups {others : List Group} :
    ∀ {room : Nat} {text rest : List Char} {found : List Group},
      scan text = some (moreTokens others) →
      moreGroups room text = some (found, rest) →
      others.length ≤ room ∧ ∀ g ∈ others, g.count.val ≤ maxCount := by
  induction others with
  | nil =>
      intro room text rest found _ _
      exact ⟨Nat.zero_le _, fun g hg => absurd hg (by simp)⟩
  | cons next others ih =>
      intro room text rest found hscan hread
      have hnext : moreTokens (next :: others)
          = .ampersand :: (next.tokens ++ moreTokens others) := by
        simp [moreTokens]
      rw [hnext] at hscan
      obtain ⟨after, hletter, hafter⟩ := letter_of_scan (e := '&') rfl hscan
      obtain ⟨hnone, -, -⟩
        | ⟨left, t₁, g, t₂, more, rfl, hletter', hgroup, hmore, -⟩ :=
        moreGroups_eq_some_iff.1 hread
      · rw [hletter] at hnone
        cases hnone
      · rw [hletter] at hletter'
        cases hletter'
        obtain ⟨hle, hscan₂⟩ := group_of_tokens hafter hgroup
        obtain ⟨hlen, hcount⟩ := ih hscan₂ hmore
        refine ⟨Nat.succ_le_succ hlen, ?_⟩
        intro group hmem
        rcases List.mem_cons.1 hmem with rfl | hmem
        · exact hle
        · exact hcount group hmem

/-- A die that is read from its tokens keeps to the limits. -/
theorem withinLimits_of_die {text rest : List Char} {d found : Die}
    (hscan : scan text = some d.tokens)
    (hread : die text = some (found, rest)) : d.WithinLimits := by
  obtain ⟨g, more, hgroups⟩ := List.exists_cons_of_ne_nil d.groups_ne_nil
  rw [Die.tokens_eq hgroups] at hscan
  obtain ⟨g', t₁, others, hgroup, hmore, -⟩ := die_eq_some_iff.1 hread
  obtain ⟨hle, hscan₁⟩ := group_of_tokens hscan hgroup
  obtain ⟨hlen, hcount⟩ := limits_of_moreGroups hscan₁ hmore
  constructor
  · rw [hgroups, List.length_cons]
    unfold maxGroups at hlen ⊢
    omega
  · rw [hgroups]
    intro group hmem
    rcases List.mem_cons.1 hmem with rfl | hmem
    · exact hle
    · exact hcount group hmem

-- ========================================================= round trips

theorem Die.toList_toString (d : Die) : d.toString.toList = d.written := by
  unfold Die.toString
  exact String.toList_ofList

/-- The notation of a die scans to its tokens. -/
theorem Die.scan_toString (d : Die) :
    scan d.toString.toList = some d.tokens := by
  have hscan := d.scan_written noDigitAhead_nil
  rw [List.append_nil, scan_nil, Option.map_some, List.append_nil] at hscan
  rw [d.toList_toString, hscan]

/-- The notation of a die within the limits is read as the right-nested
die of the same groups. -/
theorem Die.parse_toString_of_withinLimits {d : Die}
    (h : d.WithinLimits) :
    ∃ nested : Die, nested.RightNested ∧ nested.groups = d.groups
      ∧ Die.parse d.toString = .ok nested := by
  obtain ⟨nested, hnested, hgroups, hphrase⟩ := d.diePhrase_tokens h
  exact ⟨nested, hnested, hgroups,
    Die.parse_eq_ok_iff.2 ⟨d.tokens, d.scan_toString, hphrase⟩⟩

/-- A die whose notation is read keeps to the limits. -/
theorem Die.withinLimits_of_parse_toString {d e : Die}
    (h : Die.parse d.toString = .ok e) : d.WithinLimits := by
  rw [Die.parse_eq] at h
  split at h
  · cases h
  · next found rest hread => exact withinLimits_of_die d.scan_toString hread

/-- A die can be read back from its notation exactly when it keeps to
the limits. It comes back nested to the right, so as itself only if it
was so; past the limits its notation is rejected as it stands. -/
theorem Die.parse_toString (d : Die) :
    ((∃ e, Die.parse d.toString = .ok e) ↔ d.WithinLimits)
      ∧ (∀ e, Die.parse d.toString = .ok e →
        e.RightNested ∧ e.groups = d.groups ∧ (e = d ↔ d.RightNested))
      ∧ (¬ d.WithinLimits →
        ∃ rest, Die.parse d.toString = .error ⟨d.toString, rest⟩) := by
  refine ⟨⟨?_, ?_⟩, ?_, ?_⟩
  · intro h
    obtain ⟨e, he⟩ := h
    exact Die.withinLimits_of_parse_toString he
  · intro h
    obtain ⟨nested, -, -, hparse⟩ := Die.parse_toString_of_withinLimits h
    exact ⟨nested, hparse⟩
  · intro e he
    have hlimits := Die.withinLimits_of_parse_toString he
    obtain ⟨nested, hnested, hgroups, hparse⟩ :=
      Die.parse_toString_of_withinLimits hlimits
    rw [he] at hparse
    cases hparse
    refine ⟨hnested, hgroups, ?_, ?_⟩
    · intro h
      subst h
      exact hnested
    · intro hd
      exact hnested.eq_of_groups hd hgroups
  · intro hlimits
    cases hparse : Die.parse d.toString with
    | ok e => exact absurd (Die.withinLimits_of_parse_toString hparse) hlimits
    | error rejection =>
        obtain ⟨carried, rest⟩ := rejection
        cases Die.input_of_parse_eq_error hparse
        exact ⟨rest, rfl⟩

end DiceNotation
