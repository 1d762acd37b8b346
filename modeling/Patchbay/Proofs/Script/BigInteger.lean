import Patchbay.Proofs.Binary.Integer
import Patchbay.Proofs.Script.Collection

/-!
Big integers on their way out. Where sixty-four bits hold one it leaves as an integer, and else as the nearest
double, by itself as well as among the items of a collection.
-/
namespace Patchbay.Script

open Binary

variable {m : Machine} {n : Int} {x : Lifted}

inductive Narrows (n : Int) : Lifted → Prop
  | int {k : Int64} (low : -2 ^ 63 ≤ n) (high : n ≤ 2 ^ 63 - 1) (same : k.toInt = n) : Narrows n (.int k)
  | float {d : Double} (outside : n < -2 ^ 63 ∨ 2 ^ 63 - 1 < n) (nearest : d.Nearest n) : Narrows n (.float d)

theorem narrows_of_scalar (scalar : (Value.bigint n).scalar = .ok (some x)) : Narrows n x := by
  simp only [Value.scalar, Except.ok.injEq, Option.some.injEq] at scalar
  subst scalar
  by_cases fits : Decimal.Fits n
  · rw [if_pos fits]
    unfold Decimal.Fits at fits
    refine .int (by omega) (by omega) (Int64.toInt_ofInt_of_le ?_ ?_) <;> omega
  · rw [if_neg fits]
    unfold Decimal.Fits at fits
    exact .float (by omega) (Double.nearest_ofInt n)

/-- A big integer is narrowed exactly where sixty-four bits end, by itself and as an item. -/
theorem big_integers_narrowed (standard : m.Standard) :
    (∀ n, ∃ x k, (lift mainEngine (.bigint n)).run m = .ok (.ok x) k ∧ Narrows n x) ∧
      ∀ v vs, m.Collects v vs → ∃ xs k, (lift mainEngine v).run m = .ok (.ok (.collection xs)) k ∧
        List.Forall₂ (fun item x => ∀ n, item = .bigint n → Narrows n x) vs xs := by
  constructor
  · intro n
    obtain ⟨x, scalar⟩ : ∃ x, (Value.bigint n).scalar = .ok (some x) := ⟨_, rfl⟩
    have lifted := gives_liftScalar (m := m) (.bigint n) fun _ => standard
    rw [scalar] at lifted
    have gives : Gives m (lift mainEngine (.bigint n)).run (.ok x) := gives_then lifted (.pure m _)
    obtain ⟨k, ran, -⟩ := gives m (.refl m)
    exact ⟨x, k, ran, narrows_of_scalar scalar⟩
  · intro v vs collects
    obtain ⟨_, k, ran, xs, rfl, leaves⟩ := collects.ends.total
    refine ⟨xs, k, ran, leaves.imp ?_⟩
    rintro item x leaf n rfl
    cases leaf with
    | scalar scalar => exact narrows_of_scalar scalar
    | other other => cases other

/-- A machine with a list of the integers on both sides of the edge. -/
def edgeMachine : Machine :=
  { setMachine with heap := setMachine.heap.push (listOf [.bigint (2 ^ 63 - 1), .bigint (2 ^ 63)]) }

theorem edge_narrowed :
    edgeMachine.Standard ∧
      ∃ k d j, (lift mainEngine (.object setMachine.heap.size)).run edgeMachine =
          .ok (.ok (.collection [.int k, .float d])) j ∧
        k.toInt = 2 ^ 63 - 1 ∧ d.Nearest ((2 ^ 63 : Int) : ℚ) := by
  have standard : edgeMachine.Standard := setMachine_ready.1.of_grown ((Machine.Grown.refl setMachine).push _)
  have there : edgeMachine.heap[setMachine.heap.size]? =
      some (listOf [.bigint (2 ^ 63 - 1), .bigint (2 ^ 63)]) := Array.getElem?_push_size
  have collects := collects_list there standard (by decide)
  obtain ⟨_, j, ran, items⟩ := (big_integers_narrowed standard).2 _ _ collects
  obtain _ | ⟨first, _ | ⟨second, ⟨⟩⟩⟩ := items
  refine ⟨standard, ?_⟩
  cases first _ rfl with
  | float outside => omega
  | @int k _ _ same =>
    cases second _ rfl with
    | int _ high => omega
    | @float d _ nearest => exact ⟨k, d, j, ran, same, nearest⟩

end Patchbay.Script
