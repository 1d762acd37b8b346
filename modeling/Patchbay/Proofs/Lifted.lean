import Patchbay.Lifted
import Patchbay.Proofs.Binary.Narrowing

/-!
Numbers on their way out. A double that stands for an integer which doubles tell from its neighbours leaves
as that integer, and any other as the float nearest to it. Whether the integer came from a double or was
one all along can no longer be seen.
-/
namespace Patchbay

open Binary

theorem ofNumber_cases (d : Double) :
    (∃ k, d.toInt? = some k ∧ k.natAbs ≤ Lifted.exactLimit ∧ Lifted.ofNumber d = .int (Int64.ofInt k)) ∨
      Lifted.ofNumber d = .float d := by
  rw [Lifted.ofNumber]
  split
  · rename_i k integral
    split
    · rename_i exact
      exact .inl ⟨k, integral, exact, rfl⟩
    · exact .inr rfl
  · exact .inr rfl

theorem toInt_exact {k : Int} (exact : k.natAbs ≤ Lifted.exactLimit) : (Int64.ofInt k).toInt = k := by
  rw [Lifted.exactLimit] at exact
  apply Int64.toInt_ofInt_of_le <;> omega

namespace Lifted

theorem ofNumber_int {d : Double} {k : Int} (integral : d.toRat? = some (k : ℚ))
    (exact : k.natAbs ≤ exactLimit) : ofNumber d = .int (Int64.ofInt k) := by
  rw [ofNumber, Double.toInt?_eq_some_iff.mpr integral]
  exact if_pos exact

theorem ofNumber_float {d : Double} (other : ∀ k : Int, d.toRat? = some (k : ℚ) → exactLimit < k.natAbs) :
    ofNumber d = .float d := by
  obtain ⟨k, integral, exact, _⟩ | kept := ofNumber_cases d
  · exact absurd exact (other k (Double.toInt?_eq_some_iff.mp integral)).not_ge
  · exact kept

theorem toRat?_of_int {d : Double} {n : Int64} (taken : (ofNumber d).scalar? = some (.int n)) :
    d.toRat? = some (n.toInt : ℚ) := by
  obtain ⟨k, integral, exact, here⟩ | kept := ofNumber_cases d
  · rw [here, scalar?, Option.some.injEq, Atom.int.injEq] at taken
    rw [← taken, toInt_exact exact]
    exact Double.toInt?_eq_some_iff.mp integral
  · rw [kept] at taken
    cases taken

theorem int32_exact (n : Int32) : n.toInt.natAbs ≤ exactLimit := by
  have low := n.le_toInt
  have high := n.toInt_lt
  rw [exactLimit]
  omega

/-- A double leaves as the integer it stands for if that is within the exact range, and as itself, narrowed
to the nearest float, if not. So it makes no difference whether an integer of thirty-two bits is held as a
double, and of doubles that leave as integers those that are equal leave as the same. -/
theorem number_encoded_exactly (d : Double) :
    (∀ k : Int, d.toRat? = some (k : ℚ) → k.natAbs ≤ 2 ^ 53 - 1 →
        ∃ n : Int64, n.toInt = k ∧ ofNumber d = .int n ∧ (ofNumber d).scalar? = some (.int n)) ∧
      ((∀ k : Int, d.toRat? = some (k : ℚ) → 2 ^ 53 - 1 < k.natAbs) →
        ofNumber d = .float d ∧ ∃ x, (ofNumber d).scalar? = some (.float x) ∧ d.Narrows x) ∧
      (∀ n : Int32, d.toRat? = some (n.toInt : ℚ) →
        (ofNumber d).scalar? = (Lifted.int n.toInt64).scalar?) ∧
      ∀ (e : Double) (a b : Int64), (ofNumber d).scalar? = some (.int a) →
        (ofNumber e).scalar? = some (.int b) → (a = b ↔ d.toRat? = e.toRat?) := by
  refine ⟨fun k integral exact => ?_, fun other => ?_, fun n integral => ?_, fun e a b mine yours => ?_⟩
  · have taken := ofNumber_int integral exact
    exact ⟨Int64.ofInt k, toInt_exact exact, taken, by rw [taken, scalar?]⟩
  · have kept := ofNumber_float other
    exact ⟨kept, Single.ofDouble d, by rw [kept, scalar?], d.narrows_ofDouble⟩
  · have same : n.toInt64 = Int64.ofInt n.toInt := by
      apply Int64.toInt_inj.mp
      rw [toInt_exact (int32_exact n), Int32.toInt_toInt64]
    rw [ofNumber_int integral (int32_exact n), same]
  · rw [toRat?_of_int mine, toRat?_of_int yours, Option.some.injEq, Int.cast_inj, Int64.toInt_inj]

end Lifted

end Patchbay
