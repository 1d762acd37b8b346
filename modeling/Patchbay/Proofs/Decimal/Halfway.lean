import Patchbay.Proofs.Binary.Twice
import Patchbay.Proofs.Decimal.Shortest
import Mathlib.Tactic.LinearCombination

/-!
Shortest decimals of floats that are read as doubles. Such a double lies on a mark of the floats only if
the decimal is very near to the mark without being it, so that a fraction with a small denominator is very
near to the ratio of a power of two and a power of ten. For each ratio that matters two neighbouring
fractions around it are found, and no fraction of a small denominator is nearer than one of them. Three of
them are near enough, and only one belongs to the shortest decimal of a float, 7.038531e-26.
-/
namespace Patchbay.Decimal

open Binary

structure Neighbours where
  low : Nat × Nat
  high : Nat × Nat

/-- How often the other fraction may be added to one, which then comes nearer, until the denominators are
large enough. -/
def strides (bound mine other near far : Nat) : Nat :=
  if other = 0 then near / far
  else if far = 0 then (bound - mine) / other + 1
  else min (near / far) ((bound - mine) / other + 1)

/-- Moves two fractions nearer to `b / a` from below and from above. -/
def approach (a b bound : Nat) : Nat → Neighbours → Neighbours
  | 0, n => n
  | fuel + 1, ⟨(p, q), (r, s)⟩ =>
    let k := strides bound q s (q * b - p * a) (r * a - s * b)
    let (p, q) := (p + k * r, q + k * s)
    let k := strides bound s q (r * a - s * b) (q * b - p * a)
    if bound ≤ q + s then ⟨(p, q), (r, s)⟩
    else approach a b bound fuel ⟨(p, q), (r + k * p, s + k * q)⟩

def neighbours (a b : Nat) : Neighbours := approach a b 33554432 20 ⟨(0, 1), (1, 0)⟩

/-- The fractions enclose `b / a` and are neighbours, none between them has a small denominator, and what
lies beyond them is far off. -/
structure Neighbours.Enclose (n : Neighbours) (a b : Nat) : Prop where
  unit : n.high.1 * n.low.2 = n.low.1 * n.high.2 + 1
  below : n.low.1 * a ≤ n.low.2 * b
  above : n.high.2 * b ≤ n.high.1 * a
  large : 33554432 ≤ n.low.2 + n.high.2
  far : b + 268435456 * (n.low.1 * a + n.high.2 * b) < 268435456 * (n.low.2 * b + n.high.1 * a)

instance (n : Neighbours) (a b : Nat) : Decidable (n.Enclose a b) :=
  decidable_of_iff (_ ∧ _ ∧ _ ∧ _ ∧ _)
    ⟨fun ⟨unit, below, above, large, far⟩ => ⟨unit, below, above, large, far⟩,
      fun e => ⟨e.unit, e.below, e.above, e.large, e.far⟩⟩

/-- The fraction `d / m` is not `b / a`, but so near to it that a double cannot tell them apart. -/
def Near (a b d m : Nat) : Prop :=
  d * a ≠ m * b ∧ 9007199254740992 * (d * a : Int) ≤ 9007199254740993 * (m * b) ∧
    9007199254740991 * (m * b : Int) ≤ 9007199254740992 * (d * a)

instance (a b d m : Nat) : Decidable (Near a b d m) := inferInstanceAs (Decidable (_ ∧ _ ∧ _))

theorem near_multiple {n : Neighbours} {a b d m : Nat} (enclose : n.Enclose a b) (some : 0 < m)
    (small : m < 33554432) (near : Near a b d m) :
    ∃ f ∈ [n.low, n.high], ∃ x, d = x * f.1 ∧ m = x * f.2 := by
  obtain ⟨⟨p, q⟩, ⟨r, s⟩⟩ := n
  obtain ⟨unit, below, above, large, far⟩ := enclose
  dsimp only at unit below above large far
  obtain ⟨apart, left, right⟩ := near
  -- In the lattice that the two span the fraction has coordinates, and they tell how far off it is.
  obtain ⟨x, xIs⟩ : ∃ x : Int, x = r * m - s * d := ⟨_, rfl⟩
  obtain ⟨y, yIs⟩ : ∃ y : Int, y = q * d - p * m := ⟨_, rfl⟩
  have unit : (r * q : Int) = p * s + 1 := by exact_mod_cast unit
  have dIs : (d : Int) = x * p + y * r := by
    rw [xIs, yIs]
    linear_combination (-(d : Int)) * unit
  have mIs : (m : Int) = x * q + y * s := by
    rw [xIs, yIs]
    linear_combination (-(m : Int)) * unit
  obtain ⟨e, eIs⟩ : ∃ e : Int, e = q * b - p * a := ⟨_, rfl⟩
  obtain ⟨f, fIs⟩ : ∃ f : Int, f = r * a - s * b := ⟨_, rfl⟩
  have low : 0 ≤ e := by
    have : (p * a : Int) ≤ q * b := by exact_mod_cast below
    omega
  have high : 0 ≤ f := by
    have : (s * b : Int) ≤ r * a := by exact_mod_cast above
    omega
  have large : (33554432 : Int) ≤ q + s := by exact_mod_cast large
  have far : (b : Int) < 268435456 * (e + f) := by
    have : (b : Int) + 268435456 * (p * a + s * b) < 268435456 * (q * b + r * a) := by exact_mod_cast far
    linarith
  have off : (d * a : Int) - m * b = y * f - x * e := by
    rw [dIs, mIs, eIs, fIs]
    ring
  have width : (m * b : Int) ≤ 33554432 * b := by exact_mod_cast Nat.mul_le_mul_right b small.le
  have qNonneg : (0 : Int) ≤ q := by positivity
  have sNonneg : (0 : Int) ≤ s := by positivity
  have some : (0 : Int) < m := by exact_mod_cast some
  have small : (m : Int) < 33554432 := by exact_mod_cast small
  rcases lt_trichotomy x 0 with xNeg | xZero | xPos
  · exfalso
    have less : x * q ≤ 0 := mul_nonpos_of_nonpos_of_nonneg xNeg.le qNonneg
    rcases le_or_gt y 0 with yNeg | yPos
    · have fewer : y * s ≤ 0 := mul_nonpos_of_nonpos_of_nonneg yNeg sNonneg
      omega
    · have first : 0 ≤ (y - 1) * f := mul_nonneg (by omega) high
      have second : 0 ≤ (-x - 1) * e := mul_nonneg (by omega) low
      linarith
  · rw [xZero, zero_mul, zero_add] at dIs mIs
    have yPos : 0 < y := by
      by_contra yNeg
      have fewer : y * s ≤ 0 := mul_nonpos_of_nonpos_of_nonneg (not_lt.mp yNeg) sNonneg
      omega
    obtain ⟨k, rfl⟩ := Int.eq_ofNat_of_zero_le yPos.le
    exact ⟨(r, s), by simp, k, by exact_mod_cast dIs, by exact_mod_cast mIs⟩
  · rcases lt_trichotomy y 0 with yNeg | yZero | yPos
    · exfalso
      have first : 0 ≤ (x - 1) * e := mul_nonneg (by omega) low
      have second : 0 ≤ (-y - 1) * f := mul_nonneg (by omega) high
      linarith
    · rw [yZero, zero_mul, add_zero] at dIs mIs
      obtain ⟨k, rfl⟩ := Int.eq_ofNat_of_zero_le xPos.le
      exact ⟨(p, q), by simp, k, by exact_mod_cast dIs, by exact_mod_cast mIs⟩
    · exfalso
      have first : 0 ≤ (x - 1) * q := mul_nonneg (by omega) qNonneg
      have second : 0 ≤ (y - 1) * s := mul_nonneg (by omega) sNonneg
      linarith

theorem Near.of_multiple {a b d m x : Nat} (some : 0 < x) (near : Near a b (x * d) (x * m)) : Near a b d m := by
  obtain ⟨apart, left, right⟩ := near
  have positive : (0 : Int) < x := by exact_mod_cast some
  push_cast at left right
  refine ⟨fun same => apart ?_, ?_, ?_⟩
  · rw [Nat.mul_assoc, same, Nat.mul_assoc]
  · apply le_of_mul_le_mul_left _ positive
    linarith
  · apply le_of_mul_le_mul_left _ positive
    linarith

def tens (q e : Int) : Nat := Nat.pow 10 e.toNat * Nat.pow 2 (-q).toNat

def twos (q e : Int) : Nat := Nat.pow 2 q.toNat * Nat.pow 10 (-e).toNat

/-- The finest grid of decimals that is no finer than `2 ^ q`. -/
def finest (q : Int) : Int := -(-q * 1233 / 4096)

/-- The marks that some decimal on a wide grid is near to, by the exponent of their unit and how often they
count it. -/
def known : List (Int × Nat) := [(-108, 22841339), (-107, 22841339), (-50, 28874659)]

/-- Finer grids are finer than `2 ^ q`, and on this one only the known marks have a decimal near to them. -/
def cleared (q : Int) : Bool :=
  let e := finest q
  let n := neighbours (tens q e) (twos q e)
  decide (268435456 * tens q (e - 1) < 268435455 * twos q (e - 1) ∧
    n.Enclose (tens q e) (twos q e) ∧
    ∀ f ∈ [n.low, n.high], Near (tens q e) (twos q e) f.1 f.2 → f.2 < 33554432 → (q, f.2) ∈ known)

theorem all_cleared : ((List.range 254).all fun (i : Nat) => cleared (i - 150)) = true := by
  decide +kernel

theorem cleared_of_range {q : Int} (low : -150 ≤ q) (high : q < 104) : cleared q = true := by
  have all := List.all_eq_true.mp all_cleared (q + 150).toNat (List.mem_range.mpr (by omega))
  rwa [show ((q + 150).toNat : Int) - 150 = q by omega] at all

theorem unit_of_tens (q e : Int) :
    ∃ u : ℚ, 0 < u ∧ (tens q e : ℚ) = 10 ^ e * u ∧ (twos q e : ℚ) = 2 ^ q * u := by
  have split {base : ℚ} (some : base ≠ 0) (e : Int) : base ^ e.toNat = base ^ e * base ^ (-e).toNat := by
    rw [← zpow_natCast, ← zpow_natCast, ← zpow_add₀ some]
    congr 1
    omega
  refine ⟨2 ^ (-q).toNat * 10 ^ (-e).toNat, by positivity, ?_, ?_⟩
  · rw [tens, Nat.pow_eq, Nat.pow_eq]
    push_cast
    rw [split (by norm_num) e]
    ring
  · rw [twos, Nat.pow_eq, Nat.pow_eq]
    push_cast
    rw [split (by norm_num) q]
    ring

/-- A decimal on a wide grid that is near to a mark, and not the mark itself, is near to a known one. -/
theorem near_known {q e : Int} {digits m : Nat} (low : -150 ≤ q) (high : q < 104) (some : 0 < m)
    (small : m < 33554432) (grid : (268435455 * 2 ^ q : ℚ) ≤ 268435456 * 10 ^ e)
    (apart : (digits * 10 ^ e : ℚ) ≠ m * 2 ^ q)
    (near : 9007199254740992 * |(digits * 10 ^ e : ℚ) - m * 2 ^ q| ≤ m * 2 ^ q) : (q, m) ∈ known := by
  have clear := cleared_of_range low high
  rw [cleared] at clear
  obtain ⟨finer, enclose, found⟩ := of_decide_eq_true clear
  obtain ⟨k, rfl⟩ : ∃ k : Nat, e = finest q + k := by
    refine ⟨(e - finest q).toNat, ?_⟩
    by_contra outside
    have less : e ≤ finest q - 1 := by omega
    obtain ⟨u, unit, tens, twos⟩ := unit_of_tens q (finest q - 1)
    have finer : (268435456 * Decimal.tens q (finest q - 1) : ℚ) <
        268435455 * Decimal.twos q (finest q - 1) := by exact_mod_cast finer
    rw [tens, twos] at finer
    have mono : (10 : ℚ) ^ e ≤ 10 ^ (finest q - 1) := zpow_le_zpow_right₀ (by norm_num) less
    nlinarith
  have moved : (digits * 10 ^ (finest q + k) : ℚ) = ((digits * 10 ^ k : Nat) : ℚ) * 10 ^ finest q := by
    rw [zpow_add₀ (by norm_num), zpow_natCast]
    push_cast
    ring
  rw [moved] at apart near
  generalize digits * 10 ^ k = d at apart near
  obtain ⟨u, unit, tens, twos⟩ := unit_of_tens q (finest q)
  generalize Decimal.tens q (finest q) = a at enclose found tens
  generalize Decimal.twos q (finest q) = b at enclose found twos
  have within := abs_le.mp (le_of_mul_le_mul_left
    (near.trans_eq (by ring : _ = 9007199254740992 * ((m * 2 ^ q : ℚ) / 9007199254740992))) (by norm_num))
  have nearby : Near a b d m := by
    have left : (d * a : ℚ) = d * 10 ^ finest q * u := by rw [tens]; ring
    have right : (m * b : ℚ) = m * 2 ^ q * u := by rw [twos]; ring
    refine ⟨fun same => apart ?_, ?_, ?_⟩
    · have same : (d * a : ℚ) = m * b := by exact_mod_cast same
      rw [left, right] at same
      exact mul_right_cancel₀ unit.ne' same
    · have bound : (9007199254740992 * (d * a) : ℚ) ≤ 9007199254740993 * (m * b) := by
        rw [left, right]
        nlinarith
      exact_mod_cast bound
    · have bound : (9007199254740991 * (m * b) : ℚ) ≤ 9007199254740992 * (d * a) := by
        rw [left, right]
        nlinarith
      exact_mod_cast bound
  obtain ⟨f, member, x, rfl, rfl⟩ := near_multiple enclose some small nearby
  have positive : 0 < x := Nat.pos_of_mul_pos_right some
  have few : f.2 < 33554432 := (Nat.le_mul_of_pos_left f.2 positive).trans_lt small
  have listed := found f member (nearby.of_multiple positive) few
  -- Each of the known fractions counts more than half of what a mark may count.
  have half : 16777216 < f.2 := by
    simp only [known, List.mem_cons, List.not_mem_nil, or_false, Prod.mk.injEq] at listed
    omega
  obtain rfl : x = 1 := by nlinarith
  rwa [one_mul]

theorem mark_counts {t : Nat} (inside : t < Layout.narrow.infinity) :
    ∃ (q : Int) (m : Nat), Layout.narrow.mark t = m * 2 ^ q ∧ Layout.narrow.place t = q + 1 ∧
      m = 2 * Layout.narrow.units t + 1 ∧ -150 ≤ q ∧ q < 104 ∧ m < 33554432 := by
  have units : Layout.narrow.units t < 2 ^ 24 := Layout.units_lt t
  have least : -149 ≤ Layout.narrow.place t := Layout.least_le_place t
  have greatest : Layout.narrow.place t < 105 := by
    have quotient : t / 2 ^ 23 ≤ 254 := by
      change t < 255 * 2 ^ 23 at inside
      omega
    change -149 + ((t / 2 ^ 23 - 1 : Nat) : Int) < 105
    omega
  refine ⟨Layout.narrow.place t - 1, 2 * Layout.narrow.units t + 1, ?_, by omega, rfl, by omega, by omega,
    by omega⟩
  rw [Layout.mark, zpow_sub_one₀ two_ne_zero]
  push_cast
  ring

theorem near_of_rounds {x : ℚ} {r t : Nat} (inside : t < Layout.narrow.infinity)
    (first : Layout.wide.Rounds x r) (same : Layout.wide.value r = Layout.narrow.mark t) :
    9007199254740992 * |x - Layout.narrow.mark t| ≤ Layout.narrow.mark t := by
  obtain ⟨s, below, there⟩ := Layout.narrow_marks t inside
  obtain rfl : r = s := Layout.value_strictMono.injective (same.trans there.symm)
  obtain ⟨q, m, mark, -, counted, low, -⟩ := mark_counts inside
  -- All marks of the floats lie far above the least of the doubles.
  have large : (2 : ℚ) ^ (-150 : Int) ≤ Layout.wide.value r := by
    have one : (1 : ℚ) ≤ m := by exact_mod_cast (show 1 ≤ m by omega)
    rw [same, mark]
    calc (2 : ℚ) ^ (-150 : Int) ≤ 2 ^ q := zpow_le_zpow_right₀ one_le_two low
      _ ≤ m * 2 ^ q := le_mul_of_one_le_left (by positivity) one
  have normal : Layout.wide.least < Layout.wide.place r := by
    by_contra least
    have few : (Layout.wide.units r : ℚ) < 2 ^ 53 := by exact_mod_cast Layout.units_lt (l := .wide) r
    have tiny : (2 : ℚ) ^ Layout.wide.place r ≤ 2 ^ (-1074 : Int) :=
      zpow_le_zpow_right₀ one_le_two (not_lt.mp least)
    have little : Layout.wide.value r < 2 ^ 53 * 2 ^ (-1074 : Int) := by
      rw [Layout.value]
      calc _ < (2 : ℚ) ^ 53 * 2 ^ Layout.wide.place r := by gcongr
        _ ≤ _ := by gcongr
    rw [← zpow_natCast, ← zpow_add₀ two_ne_zero] at little
    exact (large.trans_lt little).not_ge (zpow_le_zpow_right₀ one_le_two (by norm_num))
  have close := first.close below normal
  rw [same] at close
  exact le_of_eq_of_le (by norm_num [Layout.wide]) close

theorem known_again : ∀ p ∈ [0x162E43FD, 0x32DC4BD1], Layout.narrow.nearestDyadic
    (Layout.wide.units (Layout.wide.nearestDecimal (decimalOf p).digits (decimalOf p).exp))
    (Layout.wide.place (Layout.wide.nearestDecimal (decimalOf p).digits (decimalOf p).exp)) = p := by
  decide +kernel

/-- The shortest decimal of a float, read as a double and rounded to a float again, is the float, unless it
is 7.038531e-26. -/
theorem shortest_again {p r : Nat} (finite : p < Layout.narrow.infinity) (other : p ≠ 0x15AE43FD)
    (first : Layout.wide.Rounds (valueOf (decimalOf p)) r) : Layout.narrow.Rounds (Layout.wide.value r) p := by
  obtain done | ⟨odd, t, inside, same, side⟩ := (rounds_decimalOf finite).again Layout.narrow_marks first
  · exact done
  have near := near_of_rounds inside first same
  have pattern : (Layout.narrow.place t - -149).toNat * 2 ^ 23 + _ = t := Layout.pattern_eq t
  obtain ⟨q, m, mark, place, counted, low, high, small⟩ := mark_counts inside
  have unit : (0 : ℚ) < 2 ^ q := by positivity
  have few : (m : ℚ) < 33554432 := by exact_mod_cast small
  rw [mark] at near side
  -- The float is one of the two at the mark, half of their distance from it.
  have step : |Layout.narrow.value p - m * 2 ^ q| = 2 ^ q := by
    rcases side with ⟨rfl, -⟩ | ⟨rfl, -⟩
    · rw [Layout.value, place, zpow_add_one₀ two_ne_zero, counted, abs_sub_comm, abs_of_nonneg] <;>
        push_cast <;> linarith
    · rw [Layout.value_succ, place, zpow_add_one₀ two_ne_zero, counted, abs_of_nonneg] <;>
        push_cast <;> linarith
  have listed : (q, m) ∈ known := by
    have selected : valueOf (decimalOf p) = Layout.narrow.value p ∨ ∃ (digits : Nat) (e : Int),
        valueOf (decimalOf p) = digits * 10 ^ e ∧
          |valueOf (decimalOf p) - Layout.narrow.value p| ≤ 10 ^ e := shortest_near ..
    obtain exact | ⟨digits, e, spelled, grid⟩ := selected
    · exfalso
      rw [exact, step] at near
      nlinarith
    · refine near_known low high (by omega) small ?_ ?_ (spelled ▸ near)
      · have triangle := abs_sub_le (Layout.narrow.value p) (valueOf (decimalOf p)) (m * 2 ^ q)
        rw [step, abs_sub_comm (Layout.narrow.value p)] at triangle
        nlinarith
      · rw [← spelled]
        rcases side with ⟨-, below⟩ | ⟨-, above⟩
        · exact below.ne
        · exact above.ne'
  have isKnown : p ∈ [0x162E43FD, 0x32DC4BD1] := by
    simp only [known, List.mem_cons, List.not_mem_nil, or_false, Prod.mk.injEq] at listed ⊢
    omega
  have again := known_again p isKnown
  rw [(Layout.rounds_nearestDecimal Layout.wide_modest _ _).unique first] at again
  have rounds := Layout.rounds_nearestDyadic Layout.narrow_modest.fraction_pos (Layout.wide.units r)
    (Layout.wide.place r)
  rwa [again] at rounds

end Patchbay.Decimal
