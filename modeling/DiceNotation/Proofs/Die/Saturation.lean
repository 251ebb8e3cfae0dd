/-
Bounds that are stopped at the ends of the 64-bit range, against the
exact sums. Every step of a bound is stopped by itself: the product of a
group, the bonus that is added to it, and each sum where dice are joined.
What comes out is not the exact sum stopped once, since a step that was
stopped forgets how far it had gone, and a negative term behind it is
taken off the end of the range (`bounds_stopped_early`).

# How far the two are apart

Take the bounds of the groups apart by their sign. If all of one sign
were added first and stopped, and then all of the other, the result would
be as low, or as high, as it can get. The bound of a die lies between the
two, however it is nested (`bound_between`); the induction is on the die,
and neither end of the estimate mentions how it is joined.

The two ends meet in the exact sum, stopped once, where the terms have
one sign or where neither sum leaves the range (`Steady`). That is the
rule for dice that can be written and for lowest totals: it takes more
than a thousand million groups to have a lowest total stopped.
-/
import DiceNotation.Proofs.Die.Bounds

namespace DiceNotation

open Word (Fits clamp)

-- ======================================================== sums by sign

/-- The sum of the terms that are not below zero. -/
def gains (terms : List Int) : Int := (terms.map (max 0)).sum

/-- The sum of the terms that are below zero. -/
def losses (terms : List Int) : Int := (terms.map (min 0)).sum

theorem gains_append (a b : List Int) :
    gains (a ++ b) = gains a + gains b := by
  simp [gains]

theorem losses_append (a b : List Int) :
    losses (a ++ b) = losses a + losses b := by
  simp [losses]

theorem gains_add_losses (terms : List Int) :
    gains terms + losses terms = terms.sum := by
  induction terms with
  | nil => rfl
  | cons term terms ih =>
      simp only [gains, losses, List.map_cons, List.sum_cons] at ih ⊢
      omega

theorem gains_nonneg (terms : List Int) : 0 ≤ gains terms := by
  induction terms with
  | nil => exact Int.le_refl _
  | cons term terms ih =>
      simp only [gains, List.map_cons, List.sum_cons] at ih ⊢
      omega

theorem losses_nonpos (terms : List Int) : losses terms ≤ 0 := by
  induction terms with
  | nil => exact Int.le_refl _
  | cons term terms ih =>
      simp only [losses, List.map_cons, List.sum_cons] at ih ⊢
      omega

/-- Gains lose no less when they are stopped together. -/
theorem clamp_gains_le {a b : Int} (ha : 0 ≤ a) (hb : 0 ≤ b) :
    clamp (a + b) ≤ clamp a + clamp b := by
  simp only [Word.clamp_eq]
  omega

/-- Losses lose no less when they are stopped together. -/
theorem le_clamp_losses {a b : Int} (ha : a ≤ 0) (hb : b ≤ 0) :
    clamp a + clamp b ≤ clamp (a + b) := by
  simp only [Word.clamp_eq]
  omega

/-- A loss behind gains that were stopped is stopped at the lower end
only. -/
theorem le_clamp_of_losses (gained : Int) {lost : Int} (h : lost ≤ 0) :
    clamp gained + lost ≤ clamp (clamp gained + lost) := by
  simp only [Word.clamp_eq]
  omega

/-- A gain behind losses that were stopped is stopped at the upper end
only. -/
theorem clamp_le_of_gains {gained : Int} (h : 0 ≤ gained) (lost : Int) :
    clamp (gained + clamp lost) ≤ gained + clamp lost := by
  simp only [Word.clamp_eq]
  omega

/-- Terms of which no order of adding them up is stopped in between: they
have one sign, or both of their sums by sign are in range. -/
def Steady (terms : List Int) : Prop :=
  losses terms = 0 ∨ gains terms = 0
    ∨ Fits (gains terms) ∧ Fits (losses terms)

namespace Die

-- ============================================================ the bound

/-- The bound of a die from bounds of its groups. -/
def bound (ofGroup : Group → Int64) : Die → Int64
  | .group g => ofGroup g
  | .join left right =>
      Word.addSaturating (left.bound ofGroup) (right.bound ofGroup)

theorem lowest_eq_bound (die : Die) : die.lowest = die.bound Group.lowest := by
  induction die with
  | group g => rfl
  | join left right ihl ihr => rw [lowest, bound, ihl, ihr]

theorem highest_eq_bound (die : Die) :
    die.highest = die.bound Group.highest := by
  induction die with
  | group g => rfl
  | join left right ihl ihr => rw [highest, bound, ihl, ihr]

/-- A value between the sum of some terms with the gains first and the
one with the losses first, each stopped where it leaves the range. -/
structure BetweenOrders (terms : List Int) (value : Int) : Prop where
  low : clamp (clamp (gains terms) + losses terms) ≤ value
  high : value ≤ clamp (gains terms + clamp (losses terms))

/-- Where the terms are steady, the two orders give the same. -/
theorem BetweenOrders.eq_clamp {terms : List Int} {value : Int}
    (h : BetweenOrders terms value) (hsteady : Steady terms) :
    value = clamp terms.sum := by
  obtain ⟨hlow, hhigh⟩ := h
  have hgains := gains_nonneg terms
  have hlosses := losses_nonpos terms
  rw [← gains_add_losses]
  simp only [Word.clamp_eq] at *
  rcases hsteady with hzero | hzero | ⟨hfit, hfit'⟩
  · omega
  · omega
  · rw [Word.fits_iff] at hfit hfit'
    omega

/-- Joining keeps between the orders. -/
theorem BetweenOrders.join {a b : List Int} {x y : Int64}
    (hx : BetweenOrders a x.toInt) (hy : BetweenOrders b y.toInt) :
    BetweenOrders (a ++ b) (Word.addSaturating x y).toInt := by
  rw [Word.addSaturating_eq_clamp]
  constructor
  · rw [gains_append, losses_append]
    have hgains := clamp_gains_le (gains_nonneg a) (gains_nonneg b)
    have hleft := le_clamp_of_losses (gains a) (losses_nonpos a)
    have hright := le_clamp_of_losses (gains b) (losses_nonpos b)
    have hlowx := hx.low
    have hlowy := hy.low
    exact Word.clamp_mono (by omega)
  · rw [gains_append, losses_append]
    have hlosses := le_clamp_losses (losses_nonpos a) (losses_nonpos b)
    have hleft := clamp_le_of_gains (gains_nonneg a) (losses a)
    have hright := clamp_le_of_gains (gains_nonneg b) (losses b)
    have hhighx := hx.high
    have hhighy := hy.high
    exact Word.clamp_mono (by omega)

/-- Whatever the nesting, the bound of a die lies between the sum of the
terms of its groups with the gains first and the one with the losses
first. -/
theorem bound_between {ofGroup : Group → Int64} {term : Group → Int}
    {die : Die}
    (h : ∀ g ∈ die.groups, (ofGroup g).toInt = clamp (term g)) :
    BetweenOrders (die.groups.map term) (die.bound ofGroup).toInt := by
  induction die with
  | group g =>
      have hg : (ofGroup g).toInt = clamp (term g) := h g (by simp)
      rw [groups_group]
      constructor
      · show _ ≤ (ofGroup g).toInt
        simp only [hg, gains, losses, List.map_cons, List.map_nil,
          List.sum_singleton, Word.clamp_eq]
        omega
      · show (ofGroup g).toInt ≤ _
        simp only [hg, gains, losses, List.map_cons, List.map_nil,
          List.sum_singleton, Word.clamp_eq]
        omega
  | join left right ihl ihr =>
      rw [groups_join, List.map_append]
      exact (ihl fun g hg => h g (by simp [hg])).join
        (ihr fun g hg => h g (by simp [hg]))

end Die

-- ============================================================ of a group

namespace Group

/-- The exact lowest total of a group lies far inside the range. -/
theorem exactLowest_range (g : Group) :
    -2147483647 ≤ g.exactLowest ∧ g.exactLowest ≤ 6442450942 := by
  have hpos := g.count.toNat_pos
  have hcount : g.count.toNat < 2 ^ 32 := g.count.val.toNat_lt
  have hlow := g.bonus.le_toInt
  have hhigh := g.bonus.toInt_lt
  unfold exactLowest
  omega

/-- No step of the lowest total of a group is ever stopped. -/
theorem lowest_toInt (g : Group) : g.lowest.toInt = g.exactLowest := by
  have hrange := g.exactLowest_range
  have hfit : Fits ((Word.widen g.count.val).toInt
      + g.bonus.toInt64.toInt) := by
    rw [Word.widen_toInt, Int32.toInt_toInt64]
    show Fits g.exactLowest
    rw [Word.fits_iff]
    omega
  unfold lowest
  rw [Word.addSaturating_toInt hfit, Word.widen_toInt,
    Int32.toInt_toInt64]
  rfl

/-- The product of a group is stopped by itself, before its bonus is
added. -/
theorem highest_toInt (g : Group) :
    g.highest.toInt
      = clamp (clamp (g.count.toNat * g.sides.toNat) + g.bonus.toInt) := by
  unfold highest
  rw [Word.addSaturating_eq_clamp, Word.mulSaturating_eq_clamp,
    Int32.toInt_toInt64]
  rfl

/-- That is the exact highest total, stopped once, unless the product is
stopped and the bonus below zero. -/
theorem highest_eq_clamp_iff (g : Group) :
    g.highest.toInt = clamp g.exactHighest
      ↔ Fits (g.count.toNat * g.sides.toNat) ∨ 0 ≤ g.bonus.toInt := by
  have hlow := g.bonus.le_toInt
  have hhigh := g.bonus.toInt_lt
  have hproduct : (0 : Int) ≤ g.count.toNat * g.sides.toNat :=
    Int.mul_nonneg (Int.natCast_nonneg _) (Int.natCast_nonneg _)
  rw [highest_toInt, Word.fits_iff]
  unfold exactHighest
  rw [Word.clamp_eq, Word.clamp_eq, Word.clamp_eq]
  generalize (g.count.toNat : Int) * g.sides.toNat = product at *
  omega

end Group

-- ============================================================= of a die

namespace Die

/-- The terms of the lowest total of a die. -/
def lowestTerms (die : Die) : List Int := die.groups.map Group.exactLowest

/-- The terms of the highest total of a die, as its groups have them. -/
def highestTerms (die : Die) : List Int :=
  die.groups.map fun g => g.highest.toInt

theorem lowest_between (die : Die) :
    BetweenOrders die.lowestTerms die.lowest.toInt := by
  rw [lowest_eq_bound]
  refine bound_between fun g _ => ?_
  have hrange := g.exactLowest_range
  have hfit : Fits g.exactLowest := by
    rw [Word.fits_iff]
    omega
  rw [Word.clamp_of_fits hfit, g.lowest_toInt]

theorem highest_between (die : Die) :
    BetweenOrders die.highestTerms die.highest.toInt := by
  rw [highest_eq_bound]
  refine bound_between fun g _ => (Word.clamp_of_fits ?_).symm
  exact ⟨Int64.minValue_le_toInt _, Int64.toInt_le _⟩

theorem lowest_eq_clamp {die : Die} (h : Steady die.lowestTerms) :
    die.lowest.toInt = clamp die.exactLowest :=
  die.lowest_between.eq_clamp h

theorem highest_eq_clamp {die : Die}
    (h : Steady (die.groups.map Group.exactHighest))
    (hgroups : ∀ g ∈ die.groups,
      Fits (g.count.toNat * g.sides.toNat) ∨ 0 ≤ g.bonus.toInt) :
    die.highest.toInt = clamp die.exactHighest := by
  rw [highest_eq_bound]
  exact (bound_between fun g hg =>
    g.highest_eq_clamp_iff.2 (hgroups g hg)).eq_clamp h

/-- The terms of a lowest total add up to no more than so many words. -/
theorem lowestTerms_range (die : Die) :
    gains die.lowestTerms ≤ 6442450942 * (die.groups.length : Int)
      ∧ -2147483647 * (die.groups.length : Int)
        ≤ losses die.lowestTerms := by
  unfold lowestTerms
  induction die.groups with
  | nil => decide
  | cons g groups ih =>
      have hrange := g.exactLowest_range
      simp only [gains, losses, List.map_cons, List.sum_cons,
        List.length_cons] at ih ⊢
      omega

/-- With no more groups than that, no step of the lowest total is
stopped. -/
theorem lowest_toInt {die : Die} (h : die.groups.length ≤ 1431655765) :
    die.lowest.toInt = die.exactLowest := by
  have hrange := die.lowestTerms_range
  have hgains := gains_nonneg die.lowestTerms
  have hlosses := losses_nonpos die.lowestTerms
  have hsum : gains die.lowestTerms + losses die.lowestTerms
      = die.exactLowest := gains_add_losses _
  have hsteady : Steady die.lowestTerms := by
    refine Or.inr (Or.inr ⟨?_, ?_⟩)
    · rw [Word.fits_iff]
      omega
    · rw [Word.fits_iff]
      omega
  rw [lowest_eq_clamp hsteady, Word.clamp_of_fits]
  rw [Word.fits_iff]
  omega

/-- Where its terms are steady, a bound does not depend on the nesting. -/
theorem BetweenOrders.unique {terms : List Int} {x y : Int64}
    (hx : BetweenOrders terms x.toInt) (hy : BetweenOrders terms y.toInt)
    (h : Steady terms) : x = y := by
  rw [← Int64.toInt_inj, hx.eq_clamp h, hy.eq_clamp h]

/-- As many dice with as many sides as a word can tell. -/
def widest (bonus : Int32) : Die :=
  .group ⟨⟨4294967295, by decide⟩, ⟨4294967295, by decide⟩, bonus⟩

/-- What the bounds of a die are against the exact ones. The lowest total
lies between the orders of its terms, is the exact one stopped once where
they are steady, and is the exact one itself up to more than a thousand
million groups. So it is with the highest total, but that a group with a
product past the range and a bonus below zero has a highest total of its
own. Where the terms are steady, the bounds do not depend on the
nesting. -/
theorem bounds_saturate (die : Die) :
    (BetweenOrders die.lowestTerms die.lowest.toInt
      ∧ (Steady die.lowestTerms → die.lowest.toInt = clamp die.exactLowest)
      ∧ (die.groups.length ≤ 1431655765 →
        die.lowest.toInt = die.exactLowest))
    ∧ (BetweenOrders die.highestTerms die.highest.toInt
      ∧ (∀ g ∈ die.groups, g.highest.toInt
          = clamp (clamp (g.count.toNat * g.sides.toNat) + g.bonus.toInt)
        ∧ (g.highest.toInt = clamp g.exactHighest
          ↔ Fits (g.count.toNat * g.sides.toNat) ∨ 0 ≤ g.bonus.toInt))
      ∧ (Steady (die.groups.map Group.exactHighest) →
        (∀ g ∈ die.groups,
          Fits (g.count.toNat * g.sides.toNat) ∨ 0 ≤ g.bonus.toInt) →
        die.highest.toInt = clamp die.exactHighest))
    ∧ ∀ other : Die, other.groups = die.groups →
      (Steady die.lowestTerms → other.lowest = die.lowest)
      ∧ (Steady die.highestTerms → other.highest = die.highest) := by
  refine ⟨⟨die.lowest_between, lowest_eq_clamp, lowest_toInt⟩,
    ⟨die.highest_between,
      fun g _ => ⟨g.highest_toInt, g.highest_eq_clamp_iff⟩,
      highest_eq_clamp⟩, ?_⟩
  intro other hgroups
  have hlow := other.lowest_between
  have hhigh := other.highest_between
  unfold lowestTerms at hlow
  unfold highestTerms at hhigh
  rw [hgroups] at hlow hhigh
  exact ⟨hlow.unique die.lowest_between, hhigh.unique die.highest_between⟩

/-- Two of the widest groups: their highest totals have one sign, so the
sum is the end of the range, as the exact one is when it is stopped. -/
theorem bounds_of_widest_pair :
    ((widest Int32.maxValue).join (widest Int32.maxValue)).highest.toInt
      = clamp ((widest Int32.maxValue).join
        (widest Int32.maxValue)).exactHighest := by
  refine (bounds_saturate _).2.1.2.2 (Or.inl (by decide)) ?_
  have hbonus : ∀ g ∈ ((widest Int32.maxValue).join
      (widest Int32.maxValue)).groups, 0 ≤ g.bonus.toInt := by
    decide
  exact fun g hg => Or.inr (hbonus g hg)

-- ==================================================== stopped too early

/-- One die with one side and the lowest bonus there is. -/
def least : Die := .group ⟨.one, .one, Int32.minValue⟩

/-- A die joined with itself, and so on for what comes out. -/
def doubled (die : Die) : Nat → Die
  | 0 => die
  | times + 1 => .join (die.doubled times) (die.doubled times)

theorem groups_doubled (g : Group) (times : Nat) :
    ((Die.group g).doubled times).groups = List.replicate (2 ^ times) g := by
  induction times with
  | zero => rfl
  | succ times ih =>
      rw [doubled, groups_join, ih, List.replicate_append_replicate,
        Nat.pow_succ, Nat.mul_two]

/-- Terms that are not below zero are not stopped on the way. -/
theorem lowest_doubled {g : Group} (h : 0 ≤ g.exactLowest) (times : Nat) :
    ((Die.group g).doubled times).exactLowest = 2 ^ times * g.exactLowest
      ∧ ((Die.group g).doubled times).lowest.toInt
        = clamp (2 ^ times * g.exactLowest) := by
  have hexact : ((Die.group g).doubled times).exactLowest
      = 2 ^ times * g.exactLowest := by
    simp [exactLowest, groups_doubled]
  have hsteady : Steady ((Die.group g).doubled times).lowestTerms := by
    refine Or.inl ?_
    simp [lowestTerms, losses, groups_doubled, Int.min_eq_left h]
  rw [← hexact]
  exact ⟨rfl, lowest_eq_clamp hsteady⟩

/-- The bounds of a die are not always the exact ones, stopped once. A
product that is stopped loses its bonus from the end of the range; the
same three groups have two highest totals, as they are nested; and enough
dice joined have a lowest total that is stopped before the last is
added. -/
theorem bounds_stopped_early :
    (widest (-1)).highest.toInt ≠ clamp (widest (-1)).exactHighest
      ∧ (((widest 0).join (widest 0)).join least).groups
        = ((widest 0).join ((widest 0).join least)).groups
      ∧ (((widest 0).join (widest 0)).join least).highest
        ≠ ((widest 0).join ((widest 0).join least)).highest
      ∧ (((widest Int32.maxValue).doubled 31).join least).lowest.toInt
        ≠ clamp
          (((widest Int32.maxValue).doubled 31).join least).exactLowest := by
  refine ⟨by decide, by decide, by decide, ?_⟩
  obtain ⟨hexact, hlowest⟩ : _ ∧ _ := lowest_doubled
    (g := ⟨⟨4294967295, by decide⟩, ⟨4294967295, by decide⟩,
      Int32.maxValue⟩) (by decide) 31
  rw [exactLowest_join]
  show (Word.addSaturating _ _).toInt ≠ _
  rw [Word.addSaturating_eq_clamp]
  unfold widest
  rw [hexact, hlowest]
  decide

end Die

end DiceNotation
