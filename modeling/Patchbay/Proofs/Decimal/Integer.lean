import Patchbay.Decimal.Numeral
import Mathlib.Tactic.Common
import Mathlib.Tactic.IntervalCases

/-!
Integers that are written in decimal and read again.
-/
namespace Patchbay.Decimal

def Fits (n : Int) : Prop := -9223372036854775808 ≤ n ∧ n ≤ 9223372036854775807

instance (n : Int) : Decidable (Fits n) := inferInstanceAs (Decidable (_ ∧ _))

theorem isDigit_of_written {n : Nat} {c : Char} (member : c ∈ Nat.toDigits 10 n) : isDigit c = true := by
  have digit := Nat.isDigit_of_mem_toDigits (by decide) (by decide) member
  simpa [isDigit, Char.isDigit, Char.le_def] using digit

theorem natOfDigits_written (n : Nat) : natOfDigits (Nat.toDigits 10 n) = n :=
  Nat.ofDigitChars_ten_toDigits

theorem head_written {n : Nat} (positive : 0 < n) : (Nat.toDigits 10 n).head? ≠ some '0' := by
  induction n using Nat.strong_induction_on with
  | h n ih =>
    rw [Nat.toDigits_eq_if (by decide)]
    split
    · rename_i small
      interval_cases n <;> decide
    · have shorter := ih (n / 10) (by omega) (by omega)
      rwa [List.head?_append, Option.or_of_isSome (by simp [Nat.toDigits_ne_nil])]

def Figures (s : List Char) : Prop := s ≠ [] ∧ ∀ c ∈ s, isDigit c = true

theorem figures_written (n : Nat) : Figures (Nat.toDigits 10 n) :=
  ⟨Nat.toDigits_ne_nil, fun _ => isDigit_of_written⟩

theorem splitSign_figures {s : List Char} (figures : Figures s) (rest : List Char) :
    splitSign (s ++ rest) = (false, s ++ rest) := by
  obtain ⟨c, s, rfl⟩ := List.exists_cons_of_ne_nil figures.1
  have digit := figures.2 c List.mem_cons_self
  rw [List.cons_append]
  unfold splitSign
  split
  · rename_i written
    rw [(List.cons.inj written).1] at digit
    cases digit
  · rename_i written
    rw [(List.cons.inj written).1] at digit
    cases digit
  · rfl

theorem integer?_of_split {s digits : List Char} (negative : Bool) (figures : Figures digits)
    (split : splitSign s = (negative, digits)) :
    integer? s = if Fits (if negative then -(natOfDigits digits : Int) else natOfDigits digits) then
      some (Int64.ofInt (if negative then -(natOfDigits digits : Int) else natOfDigits digits)) else none := by
  have some : digits.isEmpty = false := List.isEmpty_eq_false_iff.mpr figures.1
  have all : digits.all isDigit = true := List.all_eq_true.mpr figures.2
  simp only [integer?, split, some, all, Bool.not_true, Bool.or_false, Bool.false_eq_true, if_false, Fits,
    Bool.and_eq_true, decide_eq_true_eq]
  rfl

def minus (negative : Bool) : List Char := if negative then ['-'] else []

theorem mem_minus {negative : Bool} {c : Char} (member : c ∈ minus negative) : c = '-' := by
  cases negative with
  | false => cases member
  | true => exact List.mem_singleton.mp member

theorem written_int (n : Int) :
    (toString n).toList = minus (decide (n < 0)) ++ Nat.toDigits 10 n.natAbs := by
  rw [Int.toString_eq_repr, Int.repr_eq_if]
  by_cases negative : n < 0
  · rw [if_neg (by omega), decide_eq_true negative, String.toList_append, Nat.toList_repr,
      show (-n).toNat = n.natAbs by omega]
    rfl
  · rw [if_pos (by omega), decide_eq_false negative, Nat.toList_repr, show n.toNat = n.natAbs by omega]
    rfl

theorem integer?_toString (n : Int) :
    integer? (toString n).toList = if Fits n then some (Int64.ofInt n) else none := by
  have split : splitSign (toString n).toList = (decide (n < 0), Nat.toDigits 10 n.natAbs) := by
    rw [written_int]
    cases decide (n < 0)
    · have unsigned := splitSign_figures (figures_written n.natAbs) []
      rwa [List.append_nil] at unsigned
    · rfl
  have value : (if decide (n < 0) then -(n.natAbs : Int) else n.natAbs) = n := by
    simp only [decide_eq_true_eq]
    split <;> omega
  rw [integer?_of_split _ (figures_written _) split, natOfDigits_written, value]

end Patchbay.Decimal
