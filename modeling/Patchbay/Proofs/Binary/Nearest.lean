import Patchbay.Binary.Layout
import Mathlib.Algebra.Order.Field.Power
import Mathlib.Data.Rat.Cast.Order
import Mathlib.Tactic.FieldSimp
import Mathlib.Tactic.Linarith
import Mathlib.Tactic.Positivity
import Mathlib.Tactic.Ring

/-!
Nearest patterns. The patterns of a layout below its infinity stand for rationals that grow with them.
Half-way between the number of a pattern and that of the next lies the mark of the pattern, and a ratio is
given the pattern whose marks it lies between, a mark itself going to the even one of its neighbours. What
is shown of reading and writing numbers rests on this fact alone, not on how the pattern is found.
-/
namespace Patchbay.Binary

theorem ratio_scaled {base : Nat} (some : 0 < base) (num den : Nat) (e : Int) :
    ((num * Nat.pow base (-e).toNat : Nat) : ℚ) / ((den * Nat.pow base e.toNat : Nat) : ℚ) =
      num / den / (base : ℚ) ^ e := by
  have nonzero : (base : ℚ) ≠ 0 := by positivity
  obtain ⟨n, rfl | rfl⟩ := e.eq_nat_or_neg
  · simp [div_div]
  · simp
    field_simp

theorem power_split {base : Nat} (some : 0 < base) (m : Nat) (e : Int) :
    ((m * Nat.pow base e.toNat : Nat) : ℚ) / ((Nat.pow base (-e).toNat : Nat) : ℚ) =
      m * (base : ℚ) ^ e := by
  have units := ratio_scaled some m 1 (-e)
  rw [neg_neg, one_mul] at units
  rw [units]
  simp

theorem roundHalfEven_le_iff {num den : Nat} (some : 0 < den) (m : Nat) :
    roundHalfEven num den ≤ m ↔
      2 * num < (2 * m + 1) * den ∨ 2 * num = (2 * m + 1) * den ∧ m % 2 = 0 := by
  have whole := Nat.div_add_mod num den
  have small := Nat.mod_lt num some
  simp only [roundHalfEven]
  generalize num / den = q at whole ⊢
  generalize num % den = r at whole small ⊢
  rcases Nat.lt_trichotomy q m with below | rfl | above
  · have room : den * (q + 1) ≤ den * m := Nat.mul_le_mul_left den below
    have left : 2 * num < (2 * m + 1) * den := by nlinarith
    have right : (if 2 * r < den then q else if den < 2 * r then q + 1
        else if q % 2 = 0 then q else q + 1) ≤ m := by split_ifs <;> omega
    exact iff_of_true right (.inl left)
  · have expand : (2 * q + 1) * den = 2 * (den * q) + den := by ring
    rw [expand]
    split_ifs <;> omega
  · have room : den * (m + 1) ≤ den * q := Nat.mul_le_mul_left den above
    have left : (2 * m + 1) * den < 2 * num := by nlinarith
    have right : ¬ (if 2 * r < den then q else if den < 2 * r then q + 1
        else if q % 2 = 0 then q else q + 1) ≤ m := by split_ifs <;> omega
    exact iff_of_false right (by omega)

theorem log2_bounds {n : Nat} (some : n ≠ 0) :
    (2 : ℚ) ^ (n.log2 : Int) ≤ n ∧ (n : ℚ) < 2 ^ ((n.log2 : Int) + 1) := by
  constructor
  · rw [zpow_natCast]
    exact_mod_cast Nat.log2_self_le some
  · exact_mod_cast Nat.lt_log2_self (n := n)

namespace Layout

theorem logRatio_bounds {num den : Nat} (some : num ≠ 0) (part : den ≠ 0) :
    (2 : ℚ) ^ logRatio num den ≤ num / den ∧ (num / den : ℚ) < 2 ^ (logRatio num den + 1) := by
  obtain ⟨numLow, numHigh⟩ := log2_bounds some
  obtain ⟨denLow, denHigh⟩ := log2_bounds part
  have denPos : (0 : ℚ) < den := by positivity
  generalize bound : (num.log2 : Int) - den.log2 = k
  have test : num * Nat.pow 2 (-k).toNat < den * Nat.pow 2 k.toNat ↔ (num / den : ℚ) < 2 ^ k := by
    have units := @ratio_scaled 2 (by decide) num den k
    have powPos : (0 : ℚ) < ((den * Nat.pow 2 k.toNat : Nat) : ℚ) := by simp; positivity
    rw [← Nat.cast_lt (α := ℚ), ← div_lt_one powPos, units, div_lt_one (by positivity)]
    norm_num
  have low : (2 : ℚ) ^ (k - 1) ≤ num / den := by
    rw [le_div_iff₀ denPos]
    calc (2 : ℚ) ^ (k - 1) * den ≤ 2 ^ (k - 1) * 2 ^ ((den.log2 : Int) + 1) := by gcongr
      _ = 2 ^ (num.log2 : Int) := by
        rw [← zpow_add₀ two_ne_zero]
        congr 1
        omega
      _ ≤ num := numLow
  have high : (num / den : ℚ) < 2 ^ (k + 1) := by
    rw [div_lt_iff₀ denPos]
    calc (num : ℚ) < 2 ^ ((num.log2 : Int) + 1) := numHigh
      _ = 2 ^ (k + 1) * 2 ^ (den.log2 : Int) := by
        rw [← zpow_add₀ two_ne_zero]
        congr 1
        omega
      _ ≤ 2 ^ (k + 1) * den := by gcongr
  simp only [logRatio, bound]
  split
  · rename_i less
    exact ⟨low, by simpa using test.mp less⟩
  · rename_i more
    exact ⟨not_lt.mp (mt test.mpr more), high⟩

variable (l : Layout)

/-- The exponent of the unit in which a pattern counts. -/
def place (p : Nat) : Int := l.least + (p / 2 ^ l.fraction - 1 : Nat)

def units (p : Nat) : Nat := p - (p / 2 ^ l.fraction - 1) * 2 ^ l.fraction

/-- The number that a pattern below infinity stands for. -/
def value (p : Nat) : ℚ := l.units p * 2 ^ l.place p

/-- Half-way between a pattern and the next. -/
def mark (p : Nat) : ℚ := (l.units p + 1 / 2) * 2 ^ l.place p

/-- A number has this nearest pattern: the marks below it are below the number, the others above it. -/
def Rounds (x : ℚ) (p : Nat) : Prop :=
  p ≤ l.infinity ∧ ∀ t < l.infinity, p ≤ t ↔ x < l.mark t ∨ x = l.mark t ∧ t % 2 = 0

variable {l}

theorem pattern_eq (p : Nat) : (l.place p - l.least).toNat * 2 ^ l.fraction + l.units p = p := by
  have whole := Nat.div_mul_le_self p (2 ^ l.fraction)
  have less : (p / 2 ^ l.fraction - 1) * 2 ^ l.fraction ≤ p / 2 ^ l.fraction * 2 ^ l.fraction :=
    Nat.mul_le_mul_right _ (Nat.sub_le _ _)
  rw [place, units, add_sub_cancel_left, Int.toNat_natCast]
  omega

theorem least_le_place (p : Nat) : l.least ≤ l.place p := by
  rw [place]
  omega

theorem units_lt (p : Nat) : l.units p < 2 ^ (l.fraction + 1) := by
  have some := Nat.two_pow_pos l.fraction
  have small := Nat.lt_div_mul_add (a := p) some
  rw [units, pow_succ]
  generalize p / 2 ^ l.fraction = k at small ⊢
  cases k with
  | zero =>
    rw [Nat.zero_mul, Nat.zero_add] at small
    omega
  | succ k =>
    rw [Nat.add_one_mul] at small
    rw [Nat.add_sub_cancel]
    omega

theorem units_ge {p : Nat} (normal : l.least < l.place p) : 2 ^ l.fraction ≤ l.units p := by
  have whole := Nat.div_mul_le_self p (2 ^ l.fraction)
  rw [place] at normal
  rw [units]
  cases quotient : p / 2 ^ l.fraction with
  | zero => simp [quotient] at normal
  | succ k =>
    rw [quotient, Nat.add_one_mul] at whole
    rw [Nat.add_sub_cancel]
    omega

theorem value_succ (p : Nat) : l.value (p + 1) = (l.units p + 1) * 2 ^ l.place p := by
  have here := Nat.div_add_mod p (2 ^ l.fraction)
  have small := Nat.mod_lt p (Nat.two_pow_pos l.fraction)
  generalize quotient : p / 2 ^ l.fraction = k at here
  generalize p % 2 ^ l.fraction = r at here small
  by_cases carry : r + 1 = 2 ^ l.fraction
  · have next : (p + 1) / 2 ^ l.fraction = k + 1 := by
      rw [Nat.div_eq_of_lt_le] <;> nlinarith
    have mine : l.units (p + 1) = 2 ^ l.fraction := by
      rw [units, next, Nat.add_sub_cancel]
      apply Nat.sub_eq_of_eq_add
      nlinarith
    rw [value, mine, place, next, place, quotient, units, quotient]
    cases k with
    | zero =>
      obtain rfl : p = r := by omega
      rw [← carry]
      simp
    | succ k =>
      have yours : p - k * 2 ^ l.fraction + 1 = 2 ^ l.fraction * 2 := by
        have room : k * 2 ^ l.fraction ≤ p := by nlinarith
        have expand : 2 ^ l.fraction * (k + 1) = k * 2 ^ l.fraction + 2 ^ l.fraction := by ring
        omega
      have step : ((p - k * 2 ^ l.fraction : Nat) : ℚ) + 1 = 2 ^ l.fraction * 2 := by
        exact_mod_cast yours
      have up : l.least + ((k + 1 : Nat) : Int) = l.least + (k : Int) + 1 := by push_cast; ring
      simp only [Nat.add_sub_cancel]
      rw [step, up, zpow_add_one₀ two_ne_zero]
      push_cast
      ring
  · have next : (p + 1) / 2 ^ l.fraction = k := by
      rw [Nat.div_eq_of_lt_le]
      · nlinarith
      · have room : r + 1 < 2 ^ l.fraction := by omega
        nlinarith
    have one : l.units (p + 1) = l.units p + 1 := by
      have room : (k - 1) * 2 ^ l.fraction ≤ p := by
        have less : (k - 1) * 2 ^ l.fraction ≤ k * 2 ^ l.fraction :=
          Nat.mul_le_mul_right _ (Nat.sub_le _ _)
        nlinarith
      rw [units, units, next, quotient]
      omega
    rw [value, one, place, next, place, quotient]
    push_cast
    rfl

theorem unit_pos (p : Nat) : (0 : ℚ) < 2 ^ l.place p := by positivity

theorem value_lt_mark (p : Nat) : l.value p < l.mark p := by
  have unit := l.unit_pos p
  rw [value, mark]
  nlinarith

theorem mark_lt_value_succ (p : Nat) : l.mark p < l.value (p + 1) := by
  have unit := l.unit_pos p
  rw [value_succ, mark]
  nlinarith

theorem value_strictMono : StrictMono l.value :=
  strictMono_nat_of_lt_succ fun p => (value_lt_mark p).trans (mark_lt_value_succ p)

theorem mark_strictMono : StrictMono l.mark :=
  strictMono_nat_of_lt_succ fun p => (mark_lt_value_succ p).trans (value_lt_mark (p + 1))

theorem mark_lt (p : Nat) : l.mark p < 2 ^ ((l.fraction : Int) + 1 + l.place p) := by
  have small : ((l.units p : ℚ) + 1) ≤ 2 ^ (l.fraction + 1) := by exact_mod_cast units_lt p
  have unit := unit_pos (l := l) p
  calc l.mark p < (l.units p + 1) * 2 ^ l.place p := value_succ (l := l) p ▸ mark_lt_value_succ p
    _ ≤ 2 ^ (l.fraction + 1) * 2 ^ l.place p := by gcongr
    _ = 2 ^ ((l.fraction : Int) + 1 + l.place p) := by
      rw [zpow_add₀ two_ne_zero, ← Nat.cast_add_one, zpow_natCast]

theorem lt_mark {p : Nat} (normal : l.least < l.place p) :
    (2 : ℚ) ^ ((l.fraction : Int) + l.place p) < l.mark p := by
  have large : (2 : ℚ) ^ l.fraction ≤ l.units p := by exact_mod_cast units_ge normal
  calc (2 : ℚ) ^ ((l.fraction : Int) + l.place p) = 2 ^ l.fraction * 2 ^ l.place p := by
        rw [zpow_add₀ two_ne_zero, zpow_natCast]
    _ ≤ l.value p := by rw [value]; gcongr
    _ < l.mark p := value_lt_mark p

theorem value_zero : l.value 0 = 0 := by simp [value, units]

namespace Rounds

variable {x y : ℚ} {p r : Nat}

theorem mono (mine : l.Rounds x p) (yours : l.Rounds y r) (le : x ≤ y) : p ≤ r := by
  rcases lt_or_ge r l.infinity with finite | infinite
  · rw [mine.2 r finite]
    rcases (yours.2 r finite).mp le_rfl with below | ⟨same, even⟩
    · exact .inl (le.trans_lt below)
    · rcases le.lt_or_eq with less | rfl
      · exact .inl (less.trans_eq same)
      · exact .inr ⟨same, even⟩
  · exact mine.1.trans infinite

theorem unique (mine : l.Rounds x p) (yours : l.Rounds x r) : p = r :=
  le_antisymm (mine.mono yours le_rfl) (yours.mono mine le_rfl)

theorem le_mark (rounds : l.Rounds x p) {t : Nat} (finite : t < l.infinity) (le : p ≤ t) : x ≤ l.mark t :=
  ((rounds.2 t finite).mp le).elim le_of_lt fun tie => tie.1.le

theorem mark_le (rounds : l.Rounds x p) {t : Nat} (finite : t < l.infinity) (less : t < p) :
    l.mark t ≤ x := by
  by_contra under
  exact less.not_ge ((rounds.2 t finite).mpr (.inl (not_le.mp under)))

end Rounds

theorem rounds_value {p : Nat} (finite : p < l.infinity) : l.Rounds (l.value p) p := by
  refine ⟨finite.le, fun t _ => ?_⟩
  rcases le_or_gt p t with le | less
  · exact iff_of_true le (.inl ((value_strictMono.monotone le).trans_lt (value_lt_mark t)))
  · have above : l.mark t < l.value p := (mark_lt_value_succ t).trans_le (value_strictMono.monotone less)
    refine iff_of_false less.not_ge ?_
    rintro (below | ⟨same, _⟩)
    · exact lt_asymm above below
    · exact above.ne' same

theorem units_parity (some : 0 < l.fraction) (p : Nat) : l.units p % 2 = p % 2 := by
  have even : 2 ∣ (l.place p - l.least).toNat * 2 ^ l.fraction :=
    Dvd.dvd.mul_left (dvd_pow_self 2 some.ne') _
  have whole := pattern_eq (l := l) p
  omega

theorem rounded_le_iff {num den : Nat} (part : den ≠ 0) (q : Int) (m : Nat) :
    roundHalfEven (num * Nat.pow 2 (-q).toNat) (den * Nat.pow 2 q.toNat) ≤ m ↔
      (num / den : ℚ) < (m + 1 / 2) * 2 ^ q ∨ (num / den : ℚ) = (m + 1 / 2) * 2 ^ q ∧ m % 2 = 0 := by
  have scaled := @ratio_scaled 2 (by decide) num den q
  have positive : 0 < den * Nat.pow 2 q.toNat := by
    exact Nat.mul_pos (Nat.pos_of_ne_zero part) (Nat.two_pow_pos _)
  rw [roundHalfEven_le_iff positive]
  generalize num * Nat.pow 2 (-q).toNat = a at scaled ⊢
  generalize den * Nat.pow 2 q.toNat = b at scaled positive ⊢
  have unit : (0 : ℚ) < 2 ^ q := by positivity
  have bPos : (0 : ℚ) < b := by exact_mod_cast positive
  have ratio : (num / den : ℚ) = a / b * 2 ^ q := by
    rw [scaled]
    push_cast
    field_simp
  rw [ratio, mul_lt_mul_iff_left₀ unit, mul_left_inj' unit.ne', div_lt_iff₀ bPos, div_eq_iff bPos.ne']
  have less : 2 * a < (2 * m + 1) * b ↔ (a : ℚ) < (m + 1 / 2) * b := by
    rw [← Nat.cast_lt (α := ℚ)]
    push_cast
    constructor <;> intro _ <;> linarith
  have same : 2 * a = (2 * m + 1) * b ↔ (a : ℚ) = (m + 1 / 2) * b := by
    rw [← Nat.cast_inj (R := ℚ)]
    push_cast
    constructor <;> intro _ <;> linarith
  rw [less, same]

/-- The pattern that the layout finds for a ratio is the one whose marks the ratio lies between. -/
theorem rounds_nearest (some : 0 < l.fraction) (num : Nat) {den : Nat} (part : den ≠ 0) :
    l.Rounds (num / den) (l.nearest num den) := by
  by_cases zero : num = 0
  · subst zero
    refine ⟨by simp [nearest], fun t _ => iff_of_true (by simp [nearest]) (.inl ?_)⟩
    have low : l.value 0 ≤ l.value t := value_strictMono.monotone t.zero_le
    rw [value_zero] at low
    simpa using low.trans_lt (value_lt_mark t)
  obtain ⟨low, high⟩ := logRatio_bounds zero part
  rw [nearest, if_neg zero]
  dsimp only
  generalize counted : roundHalfEven (num * Nat.pow 2 (-l.grid num den).toNat)
    (den * Nat.pow 2 (l.grid num den).toNat) = m
  have round (t : Nat) := @rounded_le_iff num den part (l.grid num den) t
  rw [counted] at round
  refine ⟨min_le_left _ _, fun t finite => ?_⟩
  rw [min_le_iff, or_iff_right finite.not_ge]
  generalize place : l.grid num den = q at round ⊢
  rw [grid] at place
  have least : l.least ≤ q := by omega
  have pattern := pattern_eq (l := l) t
  -- Both patterns count in units; how many decides only if the units are the same.
  rcases lt_trichotomy q (l.place t) with less | rfl | more
  · have normal : l.least < l.place t := least.trans_lt less
    have whole : m ≤ 2 ^ (l.fraction + 1) := by
      refine (round _).mpr (.inl (high.trans_le ?_))
      calc (2 : ℚ) ^ (logRatio num den + 1) ≤ 2 ^ (((l.fraction + 1 : Nat) : Int) + q) := by
            apply zpow_le_zpow_right₀ one_le_two
            omega
        _ = ((2 ^ (l.fraction + 1) : Nat) : ℚ) * 2 ^ q := by
            rw [zpow_add₀ two_ne_zero, zpow_natCast, Nat.cast_pow, Nat.cast_ofNat]
        _ ≤ (((2 ^ (l.fraction + 1) : Nat) : ℚ) + 1 / 2) * 2 ^ q := by gcongr; linarith
    refine iff_of_true ?_ (.inl (high.trans ((zpow_le_zpow_right₀ one_le_two ?_).trans_lt
      (lt_mark normal))))
    · have units := units_ge normal
      have steps : (q - l.least).toNat + 1 ≤ (l.place t - l.least).toNat := by omega
      have counts : ((q - l.least).toNat + 1) * 2 ^ l.fraction ≤
          (l.place t - l.least).toNat * 2 ^ l.fraction := Nat.mul_le_mul_right _ steps
      rw [pow_succ] at whole
      rw [Nat.pow_eq]
      rw [Nat.add_one_mul] at counts
      omega
    · omega
  · have counts : (l.place t - l.least).toNat * Nat.pow 2 l.fraction + m ≤ t ↔ m ≤ l.units t := by
      rw [Nat.pow_eq]
      omega
    rw [counts, round, mark, units_parity some]
  · have lowest := least_le_place (l := l) t
    have top : (2 : ℚ) ^ ((l.fraction : Int) + q) ≤ num / den :=
      (zpow_le_zpow_right₀ one_le_two (by omega)).trans low
    have part : 2 ^ l.fraction ≤ m := by
      by_contra less
      have size := Nat.two_pow_pos l.fraction
      have below := (round (2 ^ l.fraction - 1)).mp (by omega)
      rw [zpow_add₀ two_ne_zero, zpow_natCast] at top
      have unit : (0 : ℚ) < 2 ^ q := by positivity
      rw [Nat.cast_sub size] at below
      push_cast at below
      rcases below with below | ⟨same, _⟩ <;> nlinarith
    have above : l.mark t < num / den :=
      (mark_lt t).trans_le ((zpow_le_zpow_right₀ one_le_two (by omega)).trans top)
    refine iff_of_false ?_ ?_
    · have units := units_lt (l := l) t
      have steps : (l.place t - l.least).toNat + 1 ≤ (q - l.least).toNat := by omega
      have counts : ((l.place t - l.least).toNat + 1) * 2 ^ l.fraction ≤
          (q - l.least).toNat * 2 ^ l.fraction := Nat.mul_le_mul_right _ steps
      rw [Nat.add_one_mul] at counts
      rw [pow_succ] at units
      rw [Nat.pow_eq]
      omega
    · rintro (below | ⟨same, _⟩)
      · exact lt_asymm above below
      · exact above.ne' same

end Layout

end Patchbay.Binary
