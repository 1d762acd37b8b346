import Patchbay.Decimal.Shortest
import Patchbay.Proofs.Decimal.Rounding

/-!
Shortest decimals. Whichever decimal is selected for a pattern, it is read back as the pattern: a
neighbour on a grid because it was tried, the full expansion because it is the number itself. How few
digits are selected, and which of two neighbours, is not spoken of here.
-/
namespace Patchbay.Decimal

open Binary

def valueOf (d : Scaled) : ℚ := d.digits * 10 ^ d.exp

theorem strip_value (d : Scaled) : valueOf (strip d) = valueOf d := by
  have go (fuel : Nat) : valueOf (strip.go fuel d) = valueOf d := by
    induction fuel generalizing d with
    | zero => rfl
    | succ fuel ih =>
      rw [strip.go]
      split
      · rename_i zero
        have tenfold : d.digits = 10 * (d.digits / 10) := by
          simp only [Bool.and_eq_true, decide_eq_true_eq] at zero
          omega
        rw [ih, valueOf, valueOf, zpow_add_one₀ (by norm_num)]
        conv_rhs => rw [tenfold]
        push_cast
        ring
      · rfl
  exact go _

theorem onGrid_found {l : Layout} {tie : Tie} {magnitude num den : Nat} {e : Int} {d : Scaled}
    (found : onGrid? l tie magnitude num den e = some d) :
    readsBack l magnitude d = true ∧
      (d = ⟨num * Nat.pow 10 (-e).toNat / (den * Nat.pow 10 e.toNat), e⟩ ∨
        d = ⟨num * Nat.pow 10 (-e).toNat / (den * Nat.pow 10 e.toNat) + 1, e⟩) := by
  simp only [onGrid?] at found
  split at found
  · rename_i low high
    split at found
    · cases found
      exact ⟨low, .inl rfl⟩
    · split at found
      · cases found
        exact ⟨high, .inr rfl⟩
      · cases tie with
        | upward =>
          cases found
          exact ⟨high, .inr rfl⟩
        | toEven =>
          dsimp only at found
          split at found <;> cases found
          · exact ⟨low, .inl rfl⟩
          · exact ⟨high, .inr rfl⟩
  · rename_i low _
    cases found
    exact ⟨low, .inl rfl⟩
  · rename_i _ high
    cases found
    exact ⟨high, .inr rfl⟩
  · cases found

theorem onGrid_near {l : Layout} {tie : Tie} {magnitude num den : Nat} {e : Int} {d : Scaled}
    (part : den ≠ 0) (found : onGrid? l tie magnitude num den e = some d) :
    |valueOf d - num / den| ≤ 10 ^ e ∧ d.exp = e := by
  have neighbour := (onGrid_found found).2
  have scaled := @ratio_scaled 10 (by decide) num den e
  have some : 0 < den * Nat.pow 10 e.toNat :=
    Nat.mul_pos (Nat.pos_of_ne_zero part) (Nat.pow_pos (by decide))
  generalize num * Nat.pow 10 (-e).toNat = n at scaled neighbour
  generalize den * Nat.pow 10 e.toNat = k at scaled neighbour some
  have unit : (0 : ℚ) < 10 ^ e := by positivity
  have kPos : (0 : ℚ) < k := by exact_mod_cast some
  have ratio : (num / den : ℚ) = n / k * 10 ^ e := by
    rw [scaled]
    push_cast
    field_simp
  have low : ((n / k : Nat) : ℚ) ≤ n / k := by
    rw [le_div_iff₀ kPos]
    exact_mod_cast Nat.div_mul_le_self n k
  have high : (n / k : ℚ) < (n / k : Nat) + 1 := by
    rw [div_lt_iff₀ kPos]
    exact_mod_cast Nat.lt_mul_of_div_lt (Nat.lt_succ_self (n / k)) some
  rw [ratio, abs_le]
  obtain rfl | rfl := neighbour
  · refine ⟨⟨?_, ?_⟩, rfl⟩ <;> rw [valueOf] <;> dsimp only <;> nlinarith
  · refine ⟨⟨?_, ?_⟩, rfl⟩ <;> rw [valueOf] <;> push_cast <;> nlinarith

theorem expansion_value (m : Nat) (q : Int) :
    valueOf ⟨m * Nat.pow 2 q.toNat * Nat.pow 5 (-q).toNat, -((-q).toNat : Int)⟩ = m * 2 ^ q := by
  have split := @power_split 2 (by decide) m q
  rw [Nat.cast_ofNat] at split
  rw [← split, valueOf, zpow_neg, zpow_natCast]
  push_cast [Nat.pow_eq]
  rw [← div_eq_mul_inv, show (10 : ℚ) = 5 * 2 by norm_num, mul_pow, mul_comm (_ * _),
    mul_div_mul_left _ _ (by positivity)]

theorem shortest_cases (l : Layout) (tie : Tie) (m : Nat) (q : Int) :
    (∃ e d, onGrid? l tie (l.nearestDyadic m q) (m * Nat.pow 2 q.toNat) (Nat.pow 2 (-q).toNat) e = some d ∧
        valueOf (shortest l tie m q) = valueOf d) ∨
      valueOf (shortest l tie m q) = m * 2 ^ q := by
  rw [shortest, strip_value]
  cases found : (List.range 17).findSome? fun (n : Nat) => onGrid? l tie
      (l.nearest (m * Nat.pow 2 q.toNat) (Nat.pow 2 (-q).toNat)) (m * Nat.pow 2 q.toNat)
      (Nat.pow 2 (-q).toNat) (scale (m * Nat.pow 2 q.toNat) (Nat.pow 2 (-q).toNat) - 1 - (n : Int)) with
  | some d =>
    obtain ⟨n, _, here⟩ := List.exists_of_findSome?_eq_some found
    exact .inl ⟨_, d, here, rfl⟩
  | none => exact .inr (expansion_value m q)

/-- What is selected for a dyadic number is rounded as the number is. -/
theorem shortest_reads {l : Layout} (modest : l.Modest) (tie : Tie) (m : Nat) (q : Int) :
    l.nearestDecimal (shortest l tie m q).digits (shortest l tie m q).exp = l.nearestDyadic m q := by
  obtain ⟨e, d, found, same⟩ | exact := shortest_cases l tie m q
  · rw [Layout.nearestDecimal_congr modest same]
    simpa [readsBack] using (onGrid_found found).1
  · have rounds := Layout.rounds_nearestDecimal modest (shortest l tie m q).digits (shortest l tie m q).exp
    rw [valueOf] at exact
    rw [exact] at rounds
    exact rounds.unique (Layout.rounds_nearestDyadic modest.fraction_pos m q)

/-- What is selected for a dyadic number is the number itself, or as near to it as its grid is wide. -/
theorem shortest_near (l : Layout) (tie : Tie) (m : Nat) (q : Int) :
    valueOf (shortest l tie m q) = m * 2 ^ q ∨
      ∃ (digits : Nat) (e : Int), valueOf (shortest l tie m q) = digits * 10 ^ e ∧
        |valueOf (shortest l tie m q) - m * 2 ^ q| ≤ 10 ^ e := by
  obtain ⟨e, d, found, same⟩ | exact := shortest_cases l tie m q
  · have part : Nat.pow 2 (-q).toNat ≠ 0 := (Nat.two_pow_pos _).ne'
    obtain ⟨near, rfl⟩ := onGrid_near part found
    rw [@power_split 2 (by decide)] at near
    rw [same]
    exact .inr ⟨d.digits, d.exp, rfl, near⟩
  · exact .inl exact

theorem lead_bounds {l : Layout} (modest : l.Modest) {d : Scaled}
    (some : l.nearestDecimal d.digits d.exp ≠ 0)
    (finite : l.nearestDecimal d.digits d.exp ≠ l.infinity) :
    -400 ≤ d.exp + (toString d.digits).length - 1 ∧ d.exp + (toString d.digits).length - 1 < 400 := by
  have digits : 0 < d.digits := by
    apply Nat.pos_of_ne_zero
    intro zero
    exact some (by simp [Layout.nearestDecimal, zero])
  constructor
  · by_contra low
    have small := Layout.lt_least_mark modest (e := d.exp) digits (by omega)
    exact some ((Layout.rounds_nearestDecimal modest _ _).unique (Layout.rounds_zero small))
  · by_contra high
    have test : ¬ (d.exp + ((toString d.digits).length : Int) < -400) := by omega
    apply finite
    simp only [Layout.nearestDecimal]
    rw [if_neg (by rw [decide_eq_false test, decide_eq_false digits.ne']; decide), if_pos (by omega)]

def decimalOf (p : Nat) : Scaled := shortest .narrow .upward (Layout.narrow.units p) (Layout.narrow.place p)

theorem rounds_decimalOf {p : Nat} (finite : p < Layout.narrow.infinity) :
    Layout.narrow.Rounds (valueOf (decimalOf p)) p := by
  have modest := Layout.narrow_modest
  have reads := shortest_reads modest .upward (Layout.narrow.units p) (Layout.narrow.place p)
  rw [Layout.nearestDyadic_exact modest.fraction_pos finite] at reads
  have rounds := Layout.rounds_nearestDecimal modest (decimalOf p).digits (decimalOf p).exp
  rwa [decimalOf, reads] at rounds

end Patchbay.Decimal
