import Patchbay.Proofs.Binary.Exact
import Mathlib.Algebra.Order.Ring.Abs
import Mathlib.Tactic.NormNum

/-!
The nearest float, said of the numbers that the floats stand for. What lies between the marks of a pattern
is no nearer to any other; on a mark two are as near, and the even one is taken; past the last mark there
is only infinity.
-/
namespace Patchbay.Binary

theorem abs_sub_le_upper {a b x : ℚ} (less : a < b) : |x - b| ≤ |x - a| ↔ a + b ≤ 2 * x := by
  rw [← sq_le_sq]
  constructor
  · intro _
    nlinarith
  · intro _
    nlinarith

theorem abs_sub_le_lower {a b x : ℚ} (less : a < b) : |x - a| ≤ |x - b| ↔ 2 * x ≤ a + b := by
  rw [← sq_le_sq]
  constructor
  · intro _
    nlinarith
  · intro _
    nlinarith

namespace Layout

variable {l : Layout}

theorem mark_between (p : Nat) : 2 * l.mark p = l.value p + l.value (p + 1) := by
  rw [value_succ, mark, value]
  ring

namespace Rounds

variable {x : ℚ} {p t : Nat}

theorem lower (rounds : l.Rounds x p) (finite : p < l.infinity) (less : t < p) :
    |x - l.value p| ≤ |x - l.value t| ∧ (|x - l.value p| = |x - l.value t| → p % 2 = 0) := by
  obtain ⟨r, rfl⟩ : ∃ r, p = r + 1 := Nat.exists_eq_succ_of_ne_zero (by omega)
  have finite' : r < l.infinity := by omega
  have between := mark_between (l := l) r
  have low : l.value t ≤ l.value r := value_strictMono.monotone (Nat.le_of_lt_succ less)
  have above := rounds.mark_le finite' (Nat.lt_succ_self r)
  have apart := value_strictMono (l := l) less
  refine ⟨(abs_sub_le_upper apart).mpr (by linarith), fun same => ?_⟩
  have reached := (abs_sub_le_lower apart).mp same.ge
  have tie : x = l.mark r := by linarith
  by_contra odd
  exact Nat.not_succ_le_self r ((rounds.2 r finite').mpr (.inr ⟨tie, by omega⟩))

theorem upper (rounds : l.Rounds x p) (finite : p < l.infinity) (less : p < t) :
    |x - l.value p| ≤ |x - l.value t| ∧ (|x - l.value p| = |x - l.value t| → p % 2 = 0) := by
  have between := mark_between (l := l) p
  have high : l.value (p + 1) ≤ l.value t := value_strictMono.monotone less
  have below := rounds.le_mark finite le_rfl
  have apart := value_strictMono (l := l) less
  refine ⟨(abs_sub_le_lower apart).mpr (by linarith), fun same => ?_⟩
  have reached := (abs_sub_le_upper apart).mp same.ge
  rcases (rounds.2 p finite).mp le_rfl with below | ⟨_, even⟩
  · linarith
  · exact even

/-- No pattern is nearer than the one that a number is rounded to, and another is as near only if this
one is even. -/
theorem closest (rounds : l.Rounds x p) (finite : p < l.infinity) (t : Nat) :
    |x - l.value p| ≤ |x - l.value t| ∧ (|x - l.value p| = |x - l.value t| → t = p ∨ p % 2 = 0) := by
  rcases lt_trichotomy t p with less | rfl | more
  · exact ⟨(rounds.lower finite less).1, fun same => .inr ((rounds.lower finite less).2 same)⟩
  · exact ⟨le_rfl, fun _ => .inl rfl⟩
  · exact ⟨(rounds.upper finite more).1, fun same => .inr ((rounds.upper finite more).2 same)⟩

theorem lt_infinity_iff (rounds : l.Rounds x p) (some : 0 < l.infinity) (odd : l.infinity % 2 = 0) :
    p < l.infinity ↔ x < l.mark (l.infinity - 1) := by
  have last := rounds.2 (l.infinity - 1) (by omega)
  rw [Nat.le_sub_one_iff_lt some] at last
  rw [last]
  refine or_iff_left ?_
  rintro ⟨_, even⟩
  omega

end Rounds

theorem value_nonneg (p : Nat) : 0 ≤ l.value p := by
  rw [value]
  positivity

theorem mark_greatest : narrow.mark (narrow.infinity - 1) = 2 ^ 128 - 2 ^ 103 := by
  have units : narrow.units (narrow.infinity - 1) = 16777215 := by decide
  have place : narrow.place (narrow.infinity - 1) = (104 : Nat) := by decide
  rw [mark, units, place, zpow_natCast]
  norm_num

end Layout

def sign (negative : Bool) : ℚ := if negative then -1 else 1

theorem abs_sign (negative : Bool) : |sign negative| = 1 := by cases negative <;> simp [sign]

theorem sign_mul_natCast (negative : Bool) (n : Nat) :
    sign negative * n = ((if negative then -n else n : Int) : ℚ) := by cases negative <;> simp [sign]

theorem abs_sign_sub (negative : Bool) (v w : ℚ) : |sign negative * v - sign negative * w| = |v - w| := by
  rw [← mul_sub, abs_mul, abs_sign, one_mul]

theorem abs_sign_sub_other {negative other : Bool} (differ : negative ≠ other) {v w : ℚ} (some : 0 ≤ v)
    (some' : 0 ≤ w) : |sign negative * v - sign other * w| = v + w := by
  cases negative <;> cases other
  · contradiction
  · simp only [sign, Bool.false_eq_true, if_false, if_true, one_mul, neg_one_mul, sub_neg_eq_add]
    exact abs_of_nonneg (add_nonneg some some')
  · simp only [sign, Bool.false_eq_true, if_false, if_true, one_mul, neg_one_mul]
    rw [← neg_add', abs_neg]
    exact abs_of_nonneg (add_nonneg some some')
  · contradiction

theorem Layout.Rounds.closest_other {l : Layout} {v : ℚ} {p : Nat} (rounds : l.Rounds v p)
    (finite : p < l.infinity) (some : 0 ≤ v) {negative other : Bool} (differ : negative ≠ other)
    (t : Nat) :
    |sign negative * v - sign negative * l.value p| ≤ |sign negative * v - sign other * l.value t| ∧
      (|sign negative * v - sign negative * l.value p| = |sign negative * v - sign other * l.value t| →
        sign other * l.value t = sign negative * l.value p ∨ p % 2 = 0) := by
  have positive := value_nonneg (l := l) t
  rw [abs_sign_sub, abs_sign_sub_other differ some positive]
  obtain ⟨least, tie⟩ := rounds.closest finite t
  have farther : |v - l.value t| ≤ v + l.value t := by
    rw [abs_le]
    constructor <;> linarith
  refine ⟨least.trans farther, fun same => ?_⟩
  rcases tie (least.antisymm (same ▸ farther)) with rfl | even
  · -- Both signs are as near only to zero.
    have zero : l.value t = 0 := by
      by_contra nonzero
      have positive := positive.lt_of_ne' nonzero
      rcases some.lt_or_eq with some | rfl
      · have less : |v - l.value t| < v + l.value t := by
          rw [abs_lt]
          constructor <;> linarith
        exact less.ne same
      · have least := (rounds.closest finite 0).1
        rw [value_zero, sub_zero, abs_zero, zero_sub, abs_neg, abs_of_pos positive] at least
        exact least.not_gt positive
    rw [zero, mul_zero, mul_zero]
    exact .inl rfl
  · exact .inr even

theorem Layout.Rounds.closest_signed {l : Layout} {v : ℚ} {p : Nat} (rounds : l.Rounds v p)
    (finite : p < l.infinity) (some : 0 ≤ v) (negative other : Bool) (t : Nat) :
    |sign negative * v - sign negative * l.value p| ≤ |sign negative * v - sign other * l.value t| ∧
      (|sign negative * v - sign negative * l.value p| = |sign negative * v - sign other * l.value t| →
        sign other * l.value t = sign negative * l.value p ∨ p % 2 = 0) := by
  by_cases same : negative = other
  · subst same
    rw [abs_sign_sub, abs_sign_sub]
    obtain ⟨least, tie⟩ := rounds.closest finite t
    refine ⟨least, fun same => (tie same).imp_left ?_⟩
    rintro rfl
    rfl
  · exact rounds.closest_other finite some same t

namespace Single

def toRat? (x : Single) : Option ℚ :=
  match x.datum with
  | .finite negative m q => some ((if negative then -1 else 1) * (m * 2 ^ q))
  | _ => none

theorem toRat?_ofPattern {p : Nat} (finite : p < Layout.narrow.infinity) (negative : Bool) :
    (ofPattern negative p).toRat? = some ((if negative then -1 else 1) * Layout.narrow.value p) := by
  rw [toRat?, datum_ofPattern finite]
  rfl

theorem exists_value {x : Single} {u : ℚ} (finite : x.toRat? = some u) :
    ∃ negative, ∃ p < Layout.narrow.infinity, u = sign negative * Layout.narrow.value p := by
  rw [toRat?] at finite
  split at finite
  · rename_i negative m q parts
    obtain ⟨p, below, rfl, rfl, _⟩ := exists_pattern parts
    exact ⟨negative, p, below, (Option.some.inj finite).symm⟩
  · cases finite

theorem datum_infinity (negative : Bool) :
    (ofPattern negative Layout.narrow.infinity).datum = .infinite negative := by
  cases negative
  · decide
  · decide

/-- What a number, given by its sign and its size, becomes as a float: the nearest one, of two that are as
near the one whose last digit is even, and infinity for what is nearer to the float that would come after
the last. -/
inductive Nearest (negative : Bool) (v : ℚ) (x : Single) : Prop
  | finite {m : Nat} {q : Int} (small : v < 2 ^ 128 - 2 ^ 103) (datum : x.datum = .finite negative m q)
      (closest : ∀ y u, toRat? y = some u →
        |sign negative * v - sign negative * (m * 2 ^ q)| ≤ |sign negative * v - u| ∧
          (|sign negative * v - sign negative * (m * 2 ^ q)| = |sign negative * v - u| →
            u = sign negative * (m * 2 ^ q) ∨ m % 2 = 0)) : Nearest negative v x
  | infinite (large : 2 ^ 128 - 2 ^ 103 ≤ v) (datum : x.datum = .infinite negative) : Nearest negative v x

theorem Nearest.datum_ne_nan {negative : Bool} {v : ℚ} {x : Single} (nearest : Nearest negative v x) :
    x.datum ≠ .nan := by
  cases nearest with
  | finite _ datum => simp [datum]
  | infinite _ datum => simp [datum]

end Single

theorem Layout.Rounds.nearest {v : ℚ} {p : Nat} (rounds : narrow.Rounds v p) (some : 0 ≤ v)
    (negative : Bool) : (Single.ofPattern negative p).Nearest negative v := by
  have finite_iff := rounds.lt_infinity_iff (by decide) (by decide)
  rw [mark_greatest] at finite_iff
  rcases rounds.1.lt_or_eq with finite | rfl
  · refine .finite (finite_iff.mp finite) (Single.datum_ofPattern finite negative) fun y u standing => ?_
    obtain ⟨other, t, _, rfl⟩ := Single.exists_value standing
    change |sign negative * v - sign negative * narrow.value p| ≤ _ ∧
      (|sign negative * v - sign negative * narrow.value p| = _ → _ = sign negative * narrow.value p ∨ _)
    rw [units_parity narrow_modest.fraction_pos]
    exact rounds.closest_signed finite some negative other t
  · exact .infinite (not_lt.mp (mt finite_iff.mpr (lt_irrefl _))) (Single.datum_infinity negative)

namespace Double

def toRat? (d : Double) : Option ℚ :=
  match d.datum with
  | .finite negative m q => some ((if negative then -1 else 1) * (m * 2 ^ q))
  | _ => none

/-- What a double becomes as a float of thirty-two bits. -/
inductive Narrows (d : Double) (x : Single) : Prop
  | nan (mine : d.datum = .nan) (yours : x.datum = .nan) : Narrows d x
  | infinite {negative : Bool} (mine : d.datum = .infinite negative) (yours : x.datum = .infinite negative) :
      Narrows d x
  | finite {negative : Bool} {m : Nat} {q : Int} (mine : d.datum = .finite negative m q)
      (nearest : x.Nearest negative (m * 2 ^ q)) : Narrows d x

theorem narrows_ofDouble (d : Double) : d.Narrows (Single.ofDouble d) := by
  rw [Single.ofDouble, Single.ofDatum]
  cases datum : d.datum with
  | nan => exact .nan datum (by decide)
  | infinite negative => exact .infinite datum (Single.datum_infinity negative)
  | finite negative m q =>
    have rounds := Layout.rounds_nearestDyadic Layout.narrow_modest.fraction_pos m q
    exact .finite datum (rounds.nearest (by positivity) negative)

theorem toInt?_eq_some_iff {d : Double} {k : Int} : d.toInt? = some k ↔ d.toRat? = some (k : ℚ) := by
  rw [toInt?, toRat?]
  cases d.datum with
  | nan | infinite => simp
  | finite negative m q =>
    have parts (n : Nat) := wholePart_iff (m := m) (n := n) (q := q)
    dsimp only
    rw [Option.some.injEq]
    change _ ↔ sign negative * (m * 2 ^ q) = k
    constructor
    · intro integral
      split at integral
      · rename_i whole
        rw [← Option.some.inj integral, (parts _).mp ⟨whole, rfl⟩]
        exact sign_mul_natCast negative _
      · cases integral
    · intro same
      have size : (m * 2 ^ q : ℚ) = k.natAbs := by
        have some : (0 : ℚ) ≤ m * 2 ^ q := by positivity
        rw [Nat.cast_natAbs, Int.cast_abs, ← same, abs_mul, abs_sign, one_mul, abs_of_nonneg some]
      obtain ⟨whole, counted⟩ := (parts _).mpr size
      rw [size, sign_mul_natCast, Int.cast_inj] at same
      rw [if_pos whole, counted, same]

end Double

end Patchbay.Binary
