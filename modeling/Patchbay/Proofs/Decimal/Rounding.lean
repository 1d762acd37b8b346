import Patchbay.Proofs.Binary.Exact
import Mathlib.Tactic.NormNum

/-!
Decimals rounded to patterns. The exponents that the program refuses to form belong to numbers so small
or so large that nothing else could become of them, so a decimal has the nearest pattern of the rational
that it stands for, whatever its digits and its exponent are.
-/
namespace Patchbay.Binary.Layout

variable {l : Layout}

theorem rounds_zero {x : ℚ} (small : x < l.mark 0) : l.Rounds x 0 :=
  ⟨Nat.zero_le _, fun t _ =>
    iff_of_true t.zero_le (.inl (small.trans_le (mark_strictMono.monotone t.zero_le)))⟩

theorem rounds_infinity {x : ℚ} (large : ∀ t < l.infinity, l.mark t < x) : l.Rounds x l.infinity := by
  refine ⟨le_rfl, fun t finite => iff_of_false finite.not_ge ?_⟩
  have above := large t finite
  rintro (below | ⟨same, _⟩)
  · exact lt_asymm above below
  · exact above.ne' same

namespace Modest

variable (modest : l.Modest)
include modest

theorem least_mark : (2 : ℚ) ^ (-1075 : Int) ≤ l.mark 0 := by
  have zero : l.mark 0 = 2 ^ (l.least - 1) := by
    rw [mark, zpow_sub_one₀ two_ne_zero]
    simp [units, place]
    ring
  rw [zero]
  apply zpow_le_zpow_right₀ one_le_two
  have bound := modest.exponent_bound.2
  have fraction := modest.fraction_le
  rw [least_eq]
  omega

theorem greatest_mark {t : Nat} (finite : t < l.infinity) : l.mark t < 2 ^ (1027 : Int) := by
  refine (mark_lt t).trans_le (zpow_le_zpow_right₀ one_le_two ?_)
  have biased := biased_lt.mp finite
  obtain ⟨double, bound⟩ := modest.exponent_bound
  rw [place, least_eq]
  omega

end Modest

theorem digits_bounds {n : Nat} (some : 0 < n) :
    (10 : ℚ) ^ (((toString n).length : Int) - 1) ≤ n ∧ (n : ℚ) < 10 ^ ((toString n).length : Int) := by
  have long : 0 < (Nat.toDigits 10 n).length := Nat.length_toDigits_pos
  have upper := Nat.length_toDigits_le_iff (n := n) (b := 10) (by decide) long
  have length : (toString n).length = (Nat.toDigits 10 n).length := by
    rw [Nat.toString_eq_ofList_toDigits, String.length_ofList]
  rw [length]
  constructor
  · rcases Nat.eq_or_lt_of_le long with one | more
    · rw [← one]
      simpa using Nat.succ_le_of_lt some
    · have lower := Nat.length_toDigits_le_iff (n := n) (b := 10) (k := (Nat.toDigits 10 n).length - 1)
        (by decide) (by omega)
      have reached : 10 ^ ((Nat.toDigits 10 n).length - 1) ≤ n := by
        by_contra less
        have := lower.mpr (by omega)
        omega
      rw [← Nat.cast_one, ← Nat.cast_sub long, zpow_natCast]
      exact_mod_cast reached
  · rw [zpow_natCast]
    exact_mod_cast upper.mp le_rfl

theorem powers_apart : 2 ^ 1075 ≤ 10 ^ 400 ∧ 2 ^ 1027 ≤ 10 ^ 400 := by decide +kernel

theorem lt_least_mark (modest : l.Modest) {digits : Nat} {e : Int} (some : 0 < digits)
    (small : e + (toString digits).length ≤ -400) : (digits * 10 ^ e : ℚ) < l.mark 0 := by
  refine lt_of_lt_of_le ?_ modest.least_mark
  calc (digits * 10 ^ e : ℚ) < 10 ^ ((toString digits).length : Int) * 10 ^ e := by
        gcongr
        exact (digits_bounds some).2
    _ = 10 ^ (e + (toString digits).length) := by rw [← zpow_add₀ (by norm_num), add_comm]
    _ ≤ 10 ^ (-400 : Int) := zpow_le_zpow_right₀ (by norm_num) small
    _ ≤ 2 ^ (-1075 : Int) := by
        rw [zpow_neg, zpow_neg]
        exact inv_anti₀ (by positivity) (by exact_mod_cast powers_apart.1)

theorem greatest_mark_lt (modest : l.Modest) {digits : Nat} {e : Int} (some : 0 < digits)
    (large : 400 < e + (toString digits).length) {t : Nat} (finite : t < l.infinity) :
    l.mark t < digits * 10 ^ e := by
  refine (modest.greatest_mark finite).trans_le ?_
  calc (2 : ℚ) ^ (1027 : Int) ≤ 10 ^ (400 : Int) := by exact_mod_cast powers_apart.2
    _ ≤ 10 ^ (((toString digits).length : Int) - 1 + e) :=
        zpow_le_zpow_right₀ (by norm_num) (by omega)
    _ = 10 ^ (((toString digits).length : Int) - 1) * 10 ^ e := zpow_add₀ (by norm_num) _ _
    _ ≤ digits * 10 ^ e := by
        gcongr
        exact (digits_bounds some).1

theorem rounds_nearestDecimal (modest : l.Modest) (digits : Nat) (e : Int) :
    l.Rounds (digits * 10 ^ e) (l.nearestDecimal digits e) := by
  simp only [nearestDecimal]
  rcases digits.eq_zero_or_pos with rfl | some
  · have zero := rounds_value modest.infinity_pos
    rw [value_zero] at zero
    simpa using zero
  by_cases small : e + (toString digits).length < -400
  · rw [if_pos (by rw [decide_eq_true small, Bool.or_true])]
    exact rounds_zero (lt_least_mark modest some small.le)
  rw [if_neg (by rw [decide_eq_false small, decide_eq_false some.ne']; decide)]
  split
  · rename_i large
    exact rounds_infinity fun t finite => greatest_mark_lt modest some large finite
  · have part : Nat.pow 10 (-e).toNat ≠ 0 := (Nat.pow_pos (by decide)).ne'
    have rounds := rounds_nearest modest.fraction_pos (digits * Nat.pow 10 e.toNat) part
    rwa [@power_split 10 (by decide)] at rounds

theorem nearestDecimal_congr (modest : l.Modest) {digits other : Nat} {e e' : Int}
    (same : (digits * 10 ^ e : ℚ) = other * 10 ^ e') :
    l.nearestDecimal digits e = l.nearestDecimal other e' :=
  (rounds_nearestDecimal modest digits e).unique (same ▸ rounds_nearestDecimal modest other e')

end Patchbay.Binary.Layout
