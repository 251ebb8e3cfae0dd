/-
The patience of a source that has finitely many states. A source goes
from state to state by itself, so that a state met again is followed by
what followed it before. Among one state more than there are, some state
is met again (`exists_met_again`), and from there on nothing is new
(`exists_after_eq`): a patience that covers all states is enough.

The generator has four 64-bit words for a state, and as many states as
its patience is long. What it draws is therefore drawn with a word that
is used, unless there is none to come at all.
-/
import DiceNotation.Proofs.Random.Draw
import DiceNotation.Random.Xoshiro
import Mathlib.Data.Fintype.Pigeonhole

namespace DiceNotation

-- ============================================================== cycles

namespace WordSource

variable {σ : Type} [WordSource σ]

/-- Once a state is met again, every later one has been met before. -/
theorem exists_after_eq {source : σ} {first again : Nat}
    (hlt : first < again)
    (hmet : after source first = after source again) (n : Nat) :
    ∃ m < again, after source n = after source m := by
  induction n using Nat.strongRecOn with
  | ind n ih =>
      by_cases hn : n < again
      · exact ⟨n, hn, rfl⟩
      · -- what is behind the second meeting is behind the first
        obtain ⟨m, hm, hsame⟩ := ih (first + (n - again)) (by omega)
        refine ⟨m, hm, ?_⟩
        calc after source n
            = after (after source again) (n - again) := by
              rw [after_after, Nat.add_sub_cancel' (by omega)]
          _ = after source (first + (n - again)) := by
              rw [← hmet, after_after]
          _ = after source m := hsame

/-- Among one state more than there are, some state is met again. -/
theorem exists_met_again {states : Nat} {number : σ → Fin states}
    (hnumber : Function.Injective number) (source : σ) :
    ∃ first again, first < again ∧ again ≤ states
      ∧ after source first = after source again := by
  obtain ⟨i, j, hne, hsame⟩ := Fintype.exists_ne_map_eq_of_card_lt
    (fun k : Fin (states + 1) => number (after source k)) (by simp)
  have hstate : after source i = after source j := hnumber hsame
  have hvalue : (i : Nat) ≠ j := fun h => hne (Fin.ext h)
  rcases Nat.lt_or_gt_of_ne hvalue with hlt | hlt
  · exact ⟨i, j, hlt, Nat.le_of_lt_succ j.isLt, hstate⟩
  · exact ⟨j, i, hlt, Nat.le_of_lt_succ i.isLt, hstate.symm⟩

/-- A patience that covers all states is enough. -/
theorem lawful_of_injective {states : Nat} {number : σ → Fin states}
    (hnumber : Function.Injective number)
    (hpatience : ∀ source : σ, states ≤ patience source) :
    LawfulWordSource σ where
  patience_enough := by
    intro source good h n
    obtain ⟨first, again, hlt, hle, hmet⟩ :=
      exists_met_again hnumber source
    obtain ⟨m, hm, hsame⟩ := exists_after_eq hlt hmet n
    have hpatient := hpatience source
    unfold word
    rw [hsame]
    exact h m (by omega)

end WordSource

-- ======================================================= the generator

namespace Xoshiro

/-- The number of a state, with a word for each digit. -/
def number (state : Xoshiro) : Fin stateCount :=
  ⟨state.s0.toNat + 2 ^ 64 * (state.s1.toNat
      + 2 ^ 64 * (state.s2.toNat + 2 ^ 64 * state.s3.toNat)), by
    have h0 := state.s0.toNat_lt
    have h1 := state.s1.toNat_lt
    have h2 := state.s2.toNat_lt
    have h3 := state.s3.toNat_lt
    show _ < 2 ^ 256
    omega⟩

theorem number_injective : Function.Injective number := by
  intro one other h
  obtain ⟨a0, a1, a2, a3⟩ := one
  obtain ⟨b0, b1, b2, b3⟩ := other
  have hdigits : a0.toNat + 2 ^ 64 * (a1.toNat
        + 2 ^ 64 * (a2.toNat + 2 ^ 64 * a3.toNat))
      = b0.toNat + 2 ^ 64 * (b1.toNat
        + 2 ^ 64 * (b2.toNat + 2 ^ 64 * b3.toNat)) :=
    congrArg Fin.val h
  have ha0 := a0.toNat_lt
  have ha1 := a1.toNat_lt
  have ha2 := a2.toNat_lt
  have hb0 := b0.toNat_lt
  have hb1 := b1.toNat_lt
  have hb2 := b2.toNat_lt
  simp only [mk.injEq, ← UInt64.toNat_inj]
  omega

instance : LawfulWordSource Xoshiro :=
  WordSource.lawful_of_injective number_injective
    fun _ => Nat.le_refl stateCount

end Xoshiro

end DiceNotation
