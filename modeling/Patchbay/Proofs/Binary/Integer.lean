import Patchbay.Proofs.Binary.Narrowing

/-!
Integers as doubles. An integer of any size has a nearest double, and that is the one which it becomes; from
half-way past the last of them on, it becomes infinite.
-/
namespace Patchbay.Binary

open Layout

theorem Layout.wide_mark_greatest : wide.mark (wide.infinity - 1) = 2 ^ 1024 - 2 ^ 970 := by
  have units : wide.units (wide.infinity - 1) = 9007199254740991 := by decide
  have place : wide.place (wide.infinity - 1) = (971 : Nat) := by decide
  have top : (2 : ℚ) ^ 1024 = 2 ^ 54 * 2 ^ 970 := by rw [← pow_add]
  rw [mark, units, place, zpow_natCast, top, pow_succ]
  generalize (2 : ℚ) ^ 970 = unit
  norm_num
  ring

theorem sign_mul_abs (x : ℚ) : sign (decide (x < 0)) * |x| = x := by
  by_cases negative : x < 0
  · rw [abs_of_neg negative, decide_eq_true negative, sign, if_pos rfl, neg_one_mul, neg_neg]
  · rw [abs_of_nonneg (not_lt.mp negative), decide_eq_false negative, sign, if_neg Bool.false_ne_true, one_mul]

namespace Double

variable {x : ℚ} {p : Nat}

theorem exists_value {d : Double} {u : ℚ} (finite : d.toRat? = some u) :
    ∃ negative, ∃ p, u = sign negative * wide.value p := by
  rw [toRat?] at finite
  split at finite
  · rename_i negative m q parts
    rw [datum, decode_finite (finite_of_decode parts), Datum.finite.injEq] at parts
    obtain ⟨-, rfl, rfl⟩ := parts
    exact ⟨negative, _, (Option.some.inj finite).symm⟩
  · cases finite

theorem datum_infinity (negative : Bool) : (ofPattern negative wide.infinity).datum = .infinite negative := by
  cases negative <;> decide

/-- What a number becomes as a double, of the same sign: the nearest one, of two that are as near the one
whose last digit is even, and infinity for what is no nearer to the last double than to the one that would
come after it. -/
inductive Nearest (x : ℚ) (d : Double) : Prop
  | finite {m : Nat} {q : Int} {u : ℚ} (small : |x| < 2 ^ 1024 - 2 ^ 970)
      (datum : d.datum = .finite (decide (x < 0)) m q) (value : d.toRat? = some u)
      (closest : ∀ other w, toRat? other = some w →
        |x - u| ≤ |x - w| ∧ (|x - u| = |x - w| → w = u ∨ m % 2 = 0)) : Nearest x d
  | infinite (large : 2 ^ 1024 - 2 ^ 970 ≤ |x|) (datum : d.datum = .infinite (decide (x < 0))) : Nearest x d

theorem nearest_of_rounds (rounds : wide.Rounds |x| p) : (ofPattern (decide (x < 0)) p).Nearest x := by
  have finite_iff := rounds.lt_infinity_iff (by decide) (by decide)
  rw [wide_mark_greatest] at finite_iff
  rcases rounds.1.lt_or_eq with finite | rfl
  · have datum := datum_ofPattern finite (decide (x < 0))
    have value : (ofPattern (decide (x < 0)) p).toRat? = some (sign (decide (x < 0)) * wide.value p) := by
      rw [toRat?, datum]
      rfl
    refine .finite (finite_iff.mp finite) datum value fun other w standing => ?_
    obtain ⟨negative, t, rfl⟩ := exists_value standing
    have closest := rounds.closest_signed finite (abs_nonneg x) (decide (x < 0)) negative t
    rw [sign_mul_abs] at closest
    rwa [units_parity wide_modest.fraction_pos]
  · exact .infinite (not_lt.mp (mt finite_iff.mpr (lt_irrefl _))) (datum_infinity _)

theorem nearest_ofInt (n : Int) : (ofInt n).Nearest n := by
  have rounds := rounds_nearest wide_modest.fraction_pos n.natAbs Nat.one_ne_zero
  rw [Nat.cast_one, div_one, Nat.cast_natAbs, Int.cast_abs] at rounds
  have nearest := nearest_of_rounds rounds
  have negative : decide ((n : ℚ) < 0) = decide (n < 0) := by rw [← Int.cast_zero, decide_eq_decide, Int.cast_lt]
  rwa [negative] at nearest

end Double

end Patchbay.Binary
