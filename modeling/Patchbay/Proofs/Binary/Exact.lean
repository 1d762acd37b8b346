import Patchbay.Binary.Double
import Patchbay.Proofs.Binary.Nearest

/-!
Patterns taken apart and put together again. A pattern that is not above the infinity of its layout
counts units of some place, and the number that it stands for has no other nearest pattern.
-/
namespace Patchbay.Binary

namespace Layout

variable {l : Layout}

theorem rounds_nearestDyadic (some : 0 < l.fraction) (m : Nat) (q : Int) :
    l.Rounds (m * 2 ^ q) (l.nearestDyadic m q) := by
  have part : Nat.pow 2 (-q).toNat ≠ 0 := (Nat.two_pow_pos _).ne'
  have rounds := rounds_nearest some (m * Nat.pow 2 q.toNat) part
  rwa [@power_split 2 (by decide)] at rounds

theorem least_eq : l.least = 2 - ((2 ^ (l.exponent - 1) : Nat) : Int) - l.fraction := by
  rw [least, Nat.pow_eq]

theorem infinity_lt_signBit : l.infinity < l.signBit := by
  rw [infinity, signBit, Nat.pow_eq, Nat.pow_eq, Nat.pow_eq, pow_add]
  exact Nat.mul_lt_mul_of_pos_right (Nat.sub_lt (Nat.two_pow_pos _) Nat.one_pos) (Nat.two_pow_pos _)

theorem biased_lt {p : Nat} : p < l.infinity ↔ p / 2 ^ l.fraction < 2 ^ l.exponent - 1 :=
  (Nat.div_lt_iff_lt_mul (Nat.two_pow_pos _)).symm

theorem decode_finite {bits : Nat} (finite : bits % l.signBit < l.infinity) :
    l.decode bits = .finite (decide (l.signBit ≤ bits)) (l.units (bits % l.signBit))
      (l.place (bits % l.signBit)) := by
  have biased := biased_lt.mp finite
  have whole := Nat.div_add_mod (bits % l.signBit) (2 ^ l.fraction)
  rw [decode, place, units]
  simp only [Nat.pow_eq]
  generalize bits % l.signBit = p at biased whole ⊢
  rw [if_neg biased.ne]
  generalize p / 2 ^ l.fraction = k at whole ⊢
  cases k with
  | zero =>
    rw [Nat.mul_zero, Nat.zero_add] at whole
    simp [whole]
  | succ k =>
    have counted : p - k * 2 ^ l.fraction = 2 ^ l.fraction + p % 2 ^ l.fraction := by
      rw [mul_add_one, mul_comm] at whole
      omega
    rw [if_neg (Nat.succ_ne_zero k), Nat.add_sub_cancel, counted]
    congr 1
    push_cast
    ring

theorem finite_of_decode {bits m : Nat} {negative : Bool} {q : Int}
    (finite : l.decode bits = .finite negative m q) : bits % l.signBit < l.infinity := by
  have bounded : bits % l.signBit / 2 ^ l.fraction < 2 ^ l.exponent := by
    rw [Nat.div_lt_iff_lt_mul (Nat.two_pow_pos _), ← pow_add]
    exact Nat.mod_lt _ (Nat.two_pow_pos _)
  rw [biased_lt]
  by_contra top
  have biased : bits % l.signBit / Nat.pow 2 l.fraction = Nat.pow 2 l.exponent - 1 := by
    simp only [Nat.pow_eq]
    omega
  simp only [decode, biased, if_true] at finite
  split at finite <;> cases finite

theorem nearestDyadic_exact (some : 0 < l.fraction) {p : Nat} (finite : p < l.infinity) :
    l.nearestDyadic (l.units p) (l.place p) = p :=
  (rounds_nearestDyadic some _ _).unique (rounds_value finite)

theorem signed_parts {bits : Nat} (bounded : bits < 2 * l.signBit) :
    l.signed (decide (l.signBit ≤ bits)) (bits % l.signBit) = bits := by
  rw [signed]
  by_cases high : l.signBit ≤ bits
  · have rest : bits % l.signBit = bits - l.signBit := by
      rw [Nat.mod_eq_sub_mod high, Nat.mod_eq_of_lt (by omega)]
    rw [if_pos (decide_eq_true high)]
    omega
  · rw [if_neg (by simpa using high), Nat.mod_eq_of_lt (by omega)]

theorem decode_signed {p : Nat} (finite : p < l.infinity) (negative : Bool) :
    l.decode (l.signed negative p) = .finite negative (l.units p) (l.place p) := by
  have small := finite.trans infinity_lt_signBit
  have magnitude : l.signed negative p % l.signBit = p := by
    cases negative
    · exact Nat.mod_eq_of_lt small
    · exact (Nat.add_mod_left _ _).trans (Nat.mod_eq_of_lt small)
  have sign : decide (l.signBit ≤ l.signed negative p) = negative := by
    cases negative
    · exact decide_eq_false small.not_ge
    · exact decide_eq_true (Nat.le_add_right _ _)
  rw [decode_finite (magnitude.symm ▸ finite), magnitude, sign]

theorem exists_units {m : Nat} {q : Int} (low : l.least ≤ q) (fits : m < 2 ^ (l.fraction + 1))
    (normal : q = l.least ∨ 2 ^ l.fraction ≤ m) : ∃ p, l.units p = m ∧ l.place p = q := by
  obtain ⟨k, rfl⟩ : ∃ k : Nat, q = l.least + k := ⟨(q - l.least).toNat, by omega⟩
  have some := Nat.two_pow_pos l.fraction
  rw [pow_succ] at fits
  refine ⟨k * 2 ^ l.fraction + m, ?_⟩
  have quotient : (k * 2 ^ l.fraction + m) / 2 ^ l.fraction = k + m / 2 ^ l.fraction := by
    rw [mul_comm, Nat.mul_add_div some]
  rw [units, place, quotient]
  by_cases large : 2 ^ l.fraction ≤ m
  · have one : m / 2 ^ l.fraction = 1 := Nat.div_eq_of_lt_le (by omega) (by omega)
    rw [one, Nat.add_sub_cancel]
    exact ⟨Nat.add_sub_cancel_left .., rfl⟩
  · obtain rfl : k = 0 := by
      rcases normal with least | large'
      · omega
      · exact absurd large' large
    have zero : m / 2 ^ l.fraction = 0 := Nat.div_eq_of_lt (by omega)
    rw [zero]
    simp

/-- What layouts are used: their numbers lie well within the powers of ten that are ever formed. -/
structure Modest (l : Layout) : Prop where
  fraction_pos : 0 < l.fraction
  fraction_le : l.fraction ≤ 52
  exponent_pos : 0 < l.exponent
  exponent_le : l.exponent ≤ 11

namespace Modest

variable (modest : l.Modest)
include modest

theorem exponent_bound : 2 ^ l.exponent = 2 * 2 ^ (l.exponent - 1) ∧ 2 ^ (l.exponent - 1) ≤ 1024 := by
  constructor
  · rw [← pow_succ', Nat.sub_add_cancel modest.exponent_pos]
  · exact Nat.pow_le_pow_right (by decide) (by have := modest.exponent_le; omega : l.exponent - 1 ≤ 10)

theorem infinity_pos : 0 < l.infinity := by
  rw [infinity, Nat.pow_eq, Nat.pow_eq]
  have size := modest.exponent_bound.1
  have half := Nat.two_pow_pos (l.exponent - 1)
  exact Nat.mul_pos (by omega) (Nat.two_pow_pos _)

theorem value_infinity : l.value l.infinity = 2 ^ (2 ^ (l.exponent - 1)) := by
  have double := modest.exponent_bound.1
  have half := Nat.two_pow_pos (l.exponent - 1)
  have quotient : l.infinity / 2 ^ l.fraction = 2 ^ l.exponent - 1 := by
    rw [infinity, Nat.pow_eq, Nat.pow_eq, Nat.mul_div_cancel _ (Nat.two_pow_pos _)]
  have units : l.units l.infinity = 2 ^ l.fraction := by
    rw [Layout.units, quotient, infinity, Nat.pow_eq, Nat.pow_eq, ← Nat.sub_mul]
    rw [show 2 ^ l.exponent - 1 - (2 ^ l.exponent - 1 - 1) = 1 by omega, one_mul]
  have place : l.place l.infinity = ((2 ^ (l.exponent - 1) : Nat) : Int) - l.fraction := by
    rw [Layout.place, quotient, least_eq]
    omega
  rw [value, units, place, zpow_sub₀ two_ne_zero, zpow_natCast, zpow_natCast, Nat.cast_pow, Nat.cast_ofNat]
  field_simp

theorem mark_lt_infinity {p : Nat} (finite : p < l.infinity) : l.mark p < 2 ^ 2 ^ (l.exponent - 1) := by
  rw [← modest.value_infinity]
  exact (mark_lt_value_succ p).trans_le (value_strictMono.monotone (Nat.succ_le_of_lt finite))

/-- A number of few enough binary digits, neither too small nor too large, has a pattern of its own. -/
theorem exists_value {m : Nat} {q : Int} (fits : m < 2 ^ (l.fraction + 1)) (low : l.least ≤ q)
    (high : (m * 2 ^ q : ℚ) < 2 ^ (2 ^ (l.exponent - 1))) : ∃ p < l.infinity, l.value p = m * 2 ^ q := by
  have below (p : Nat) (same : l.value p = m * 2 ^ q) : p < l.infinity := by
    rw [← value_strictMono.lt_iff_lt, modest.value_infinity, same]
    exact high
  rcases m.eq_zero_or_pos with rfl | some
  · exact ⟨0, modest.infinity_pos, by rw [value_zero, Nat.cast_zero, zero_mul]⟩
  -- The digits are moved up until the first of them is at its place, or the place is the least one.
  obtain ⟨k, moved⟩ : ∃ k, k = min (l.fraction - m.log2) (q - l.least).toNat := ⟨_, rfl⟩
  have size : m.log2 ≤ l.fraction := Nat.lt_succ_iff.mp ((Nat.log2_lt some.ne').mpr fits)
  have few : m * 2 ^ k < 2 ^ (l.fraction + 1) := by
    calc m * 2 ^ k < 2 ^ (m.log2 + 1) * 2 ^ k := by
          have bound := Nat.lt_log2_self (n := m)
          gcongr
      _ = 2 ^ (m.log2 + 1 + k) := (pow_add ..).symm
      _ ≤ 2 ^ (l.fraction + 1) := Nat.pow_le_pow_right (by decide) (by omega)
  have normal : q - k = l.least ∨ 2 ^ l.fraction ≤ m * 2 ^ k := by
    rcases le_total (l.fraction - m.log2) (q - l.least).toNat with less | more
    · right
      calc 2 ^ l.fraction = 2 ^ m.log2 * 2 ^ k := by
            rw [← pow_add]
            congr 1
            omega
        _ ≤ m * 2 ^ k := Nat.mul_le_mul_right _ (Nat.log2_self_le some.ne')
    · left
      omega
  obtain ⟨p, units, place⟩ := exists_units (l := l) (q := q - k) (by omega) few normal
  have same : l.value p = m * 2 ^ q := by
    rw [value, units, place, zpow_sub₀ two_ne_zero, zpow_natCast]
    push_cast
    field_simp
  exact ⟨p, below p same, same⟩

end Modest

theorem wide_modest : wide.Modest := ⟨by decide, by decide, by decide, by decide⟩

theorem narrow_modest : narrow.Modest := ⟨by decide, by decide, by decide, by decide⟩

end Layout

namespace Single

def ofPattern (negative : Bool) (p : Nat) : Single := ⟨(Layout.narrow.signed negative p).toUInt32⟩

theorem exists_pattern {x : Single} {negative : Bool} {m : Nat} {q : Int}
    (finite : x.datum = .finite negative m q) :
    ∃ p < Layout.narrow.infinity, m = Layout.narrow.units p ∧ q = Layout.narrow.place p ∧
      x = ofPattern negative p := by
  have bounded : x.bits.toNat < 2 * Layout.narrow.signBit := x.bits.toNat_lt
  have below := Layout.finite_of_decode finite
  rw [datum, Layout.decode_finite below, Datum.finite.injEq] at finite
  obtain ⟨rfl, rfl, rfl⟩ := finite
  refine ⟨_, below, rfl, rfl, ?_⟩
  rw [ofPattern, Layout.signed_parts bounded]
  simp

theorem datum_ofPattern {p : Nat} (finite : p < Layout.narrow.infinity) (negative : Bool) :
    (ofPattern negative p).datum = .finite negative (Layout.narrow.units p) (Layout.narrow.place p) := by
  have small : Layout.narrow.signed negative p < 2 ^ 32 := by
    have below : p < 2 ^ 31 := finite.trans Layout.infinity_lt_signBit
    cases negative
    · exact below.trans (by decide)
    · change 2 ^ 31 + p < 2 ^ 32
      omega
  have bits : (ofPattern negative p).bits.toNat = Layout.narrow.signed negative p :=
    (UInt32.toNat_ofNat' ..).trans (Nat.mod_eq_of_lt small)
  rw [datum, bits, Layout.decode_signed finite]

end Single

namespace Double

def ofPattern (negative : Bool) (p : Nat) : Double := ⟨(Layout.wide.signed negative p).toUInt64⟩

theorem toNat_ofPattern {p : Nat} (finite : p < Layout.wide.infinity) (negative : Bool) :
    (ofPattern negative p).bits.toNat = Layout.wide.signed negative p := by
  have below : p < 2 ^ 63 := finite.trans Layout.infinity_lt_signBit
  have small : Layout.wide.signed negative p < 2 ^ 64 := by
    cases negative
    · exact below.trans (by decide)
    · change 2 ^ 63 + p < 2 ^ 64
      omega
  exact (UInt64.toNat_ofNat' ..).trans (Nat.mod_eq_of_lt small)

theorem datum_ofPattern {p : Nat} (finite : p < Layout.wide.infinity) (negative : Bool) :
    (ofPattern negative p).datum = .finite negative (Layout.wide.units p) (Layout.wide.place p) := by
  rw [datum, toNat_ofPattern finite, Layout.decode_signed finite]

theorem xor_two_pow {n p : Nat} (small : p < 2 ^ n) : p ^^^ 2 ^ n = 2 ^ n + p := by
  have apart := Nat.two_pow_add_eq_or_of_lt small 1
  rw [Nat.mul_one] at apart
  rw [apart]
  apply Nat.eq_of_testBit_eq
  intro i
  rw [Nat.testBit_xor, Nat.testBit_or, Nat.testBit_two_pow]
  by_cases same : n = i
  · rw [← same, Nat.testBit_lt_two_pow small]
    simp
  · simp [same]

theorem neg_ofPattern {p : Nat} (finite : p < Layout.wide.infinity) :
    (ofPattern false p).neg = ofPattern true p := by
  have flipped := xor_two_pow (n := 63) (finite.trans Layout.infinity_lt_signBit)
  rw [neg]
  congr 1
  apply UInt64.toNat_inj.mp
  rw [UInt64.toNat_xor, toNat_ofPattern finite]
  exact flipped.trans (toNat_ofPattern finite true).symm

theorem wholePart_iff {m n : Nat} {q : Int} :
    (0 ≤ q || m % Nat.pow 2 (-q).toNat = 0) = true ∧ wholePart m q = n ↔ (m * 2 ^ q : ℚ) = n := by
  rw [Bool.or_eq_true, decide_eq_true_eq, decide_eq_true_eq, wholePart]
  rcases le_or_gt 0 q with whole | broken
  · obtain ⟨k, rfl⟩ := Int.eq_ofNat_of_zero_le whole
    rw [if_pos whole, zpow_natCast, Int.toNat_natCast, Nat.pow_eq]
    norm_cast
    exact and_iff_right (.inl (Nat.zero_le k))
  · obtain ⟨k, rfl⟩ : ∃ k : Nat, q = -k := ⟨(-q).toNat, by omega⟩
    have some := Nat.two_pow_pos k
    rw [if_neg broken.not_ge, neg_neg, Int.toNat_natCast, Nat.pow_eq, zpow_neg, zpow_natCast,
      ← div_eq_mul_inv, div_eq_iff (by positivity), or_iff_right broken.not_ge]
    norm_cast
    constructor
    · rintro ⟨none, rfl⟩
      exact (Nat.div_mul_cancel (Nat.dvd_of_mod_eq_zero none)).symm
    · rintro rfl
      exact ⟨Nat.mul_mod_left n _, Nat.mul_div_cancel n some⟩

theorem toInt?_ofPattern {p : Nat} (finite : p < Layout.wide.infinity) (negative : Bool) (k : Int) :
    (ofPattern negative p).toInt? = some k ↔
      ∃ n : Nat, Layout.wide.value p = n ∧ k = if negative then -(n : Int) else n := by
  have parts (n : Nat) := wholePart_iff (m := Layout.wide.units p) (n := n) (q := Layout.wide.place p)
  rw [toInt?, datum_ofPattern finite]
  dsimp only
  split
  · rename_i whole
    rw [Option.some.injEq]
    constructor
    · rintro rfl
      exact ⟨_, (parts _).mp ⟨whole, rfl⟩, rfl⟩
    · rintro ⟨n, same, rfl⟩
      rw [((parts n).mpr same).2]
  · rename_i broken
    refine iff_of_false nofun ?_
    rintro ⟨n, same, -⟩
    exact broken ((parts n).mpr same).1

end Double

end Patchbay.Binary
