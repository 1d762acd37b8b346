import Patchbay.Diagnostic
import Mathlib.Logic.Function.Basic

/-!
Identities are told apart by their numbers, so a supply never hands one out twice, also past the six
digits that the shortest of them have. The count of a process is unbounded here; no process lives to
see sixty-four bits of it run out.
-/
namespace Patchbay

theorem Identity.number_of_digits (n : Nat) :
    Nat.ofDigitChars 10 ((Identity.ofNat n).text.toList.drop 1) 0 = n := by
  have shape : (Identity.ofNat n).text.toList =
      'u' :: (List.replicate (6 - (toString n).length) '0' ++ Nat.toDigits 10 n) := by
    simp [Identity.ofNat]
  rw [shape, List.drop_one, List.tail_cons, Nat.ofDigitChars_append, Nat.ofDigitChars_replicate_zero,
    Nat.mul_zero, Nat.ofDigitChars_ten_toDigits]

theorem Identity.ofNat_injective : Function.Injective Identity.ofNat := by
  intro n m same
  rw [← number_of_digits n, same, number_of_digits]

example : (Identity.ofNat 999999).text = "u999999" ∧ (Identity.ofNat 1000000).text = "u1000000" := by
  decide

namespace Supply

/-- The supply after some identities went elsewhere in the process. -/
def skip (s : Supply) (n : Nat) : Supply := ⟨s.next + n⟩

def Issued (s : Supply) (i : Identity) : Prop := ∃ n < s.next, i = .ofNat n

theorem Issued.mono {s t : Supply} {i : Identity} (issued : s.Issued i) (later : s.next ≤ t.next) :
    t.Issued i := by
  obtain ⟨n, bound, rfl⟩ := issued
  exact ⟨n, by omega, rfl⟩

theorem issued_take (s : Supply) : s.take.2.Issued s.take.1 :=
  ⟨s.next, Nat.lt_succ_self _, rfl⟩

theorem not_issued_take (s : Supply) : ¬ s.Issued s.take.1 := by
  rintro ⟨n, bound, same⟩
  have := Identity.ofNat_injective same
  omega

end Supply

end Patchbay
