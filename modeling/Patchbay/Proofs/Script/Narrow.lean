import Patchbay.Proofs.Decimal.Integer
import Patchbay.Proofs.Script.Standard
import Patchbay.Proofs.Text.Units

/-!
The script that narrows big integers: to an integer when sixty-four bits hold it, and else to the nearest
number.
-/
namespace Patchbay.Script

open Binary Text

variable {m : Machine} {e : Engine}

theorem wrapSigned_eq_iff (n : Int) : wrapSigned 64 n = n ↔ Decimal.Fits n := by
  have width : Nat.pow 2 64 = 18446744073709551616 := by decide
  simp only [wrapSigned, width, Int.bmod, Decimal.Fits]
  split <;> omega

theorem cutToBits_eq_iff (n : Int) : cutToBits true 64 n = n ↔ Decimal.Fits n := by
  unfold cutToBits
  rw [if_neg (by decide)]
  split
  · rename_i few
    simp only [Bool.and_eq_true, decide_eq_true_eq] at few
    have small : n.natAbs < 2 ^ 63 := by
      by_cases zero : n.natAbs = 0
      · omega
      · exact (Nat.log2_lt zero).mp (by omega)
    simp only [Decimal.Fits, true_iff]
    omega
  · rw [if_neg (by decide), if_pos rfl]
    exact wrapSigned_eq_iff n

/-- The text of a big integer that sixty-four bits hold, or the nearest number. -/
def narrowed (n : Int) : Value :=
  if Decimal.Fits n then .string (.ofString (toString n)) else .number (.ofInt n)

theorem gives_asIntN {d : Nat} {r : Ref} (this : Value) (n : Int)
    (native : m.native? (.object r) = some (.bigint .asIntN)) :
    Gives m ((engine (d + 1)).call (.object r) this [.number (.ofInt 64), .bigint n])
      (.bigint (cutToBits true 64 n)) := by
  have read : bitsArg ⟨engine d, r, this, [.number (.ofInt 64), .bigint n], none⟩ = pure 64 := by
    have integer : toInteger (engine d) (.number (.ofInt 64)) = pure (Double.ofInt 64).trunc := by
      have number : (Double.ofInt 64).isNaN = false := by decide +kernel
      simp only [toInteger, toNumber, pure_bind, number, Bool.false_eq_true, if_false]
    have bits : (Double.ofInt 64).trunc.toInt? = some 64 := by decide +kernel
    simp only [bitsArg, Invocation.arg, List.getD_cons_zero, integer, pure_bind, bits]
    rfl
  refine gives_callNative native nofun ?_
  change Gives m (bitsArg _ >>= fun bits => _) _
  rw [read, pure_bind]
  exact .pure m _

theorem gives_text {d : Nat} {r : Ref} (n : Int) (native : m.native? (.object r) = some (.string .make)) :
    Gives m ((engine (d + 1)).call (.object r) .undefined [.bigint n])
      (.string (.ofString (toString n))) :=
  gives_callNative native nofun (.of_run fun _ _ => rfl)

theorem gives_number {d : Nat} {r : Ref} (n : Int) (native : m.native? (.object r) = some (.number .make)) :
    Gives m ((engine (d + 1)).call (.object r) .undefined [.bigint n]) (.number (.ofInt n)) :=
  gives_callNative native nofun (.of_run fun _ _ => rfl)

theorem gives_globalCall {d : Nat} (standard : m.Standard) {i : Nat} {p w : Value}
    (call : m.InCall i (.ofString "v") p) (name : String) (listed : name ∈ liftNames)
    (apart : CodeUnits.ofString name ≠ .ofString "v")
    (key : Key.ofUnits (.ofString name) = .named name) {r : Ref}
    (found : m.property? Proto.global.ref (.named name) = some (.object r)) (p₁ p₂ p₃ : Place)
    (answer : Gives m ((engine (d + 1)).call (.object r) .undefined [p]) w) :
    Gives m (evaluate (engine (d + 1)) ⟨i, true, false⟩
      (.call (.name (.ofString name) p₁) [.name (.ofString "v") p₂] p₃)) w := by
  rw [evaluate_call]
  refine Gives.bind (a := .object r) ?_ ?_
  · exact gives_global call standard.unhidden name listed apart key found p₁
  refine (gives_argument (v := p) (gives_param call p₂)).bind ?_
  exact (Gives.reach m p₃).bind answer

theorem gives_narrower (d : Nat) (standard : m.Standard) (n : Int) :
    Gives m (applyScript (engine (d + 6)) narrower (.bigint n)) (narrowed n) := by
  refine gives_applyScript narrower_read ?_
  intro k i grown call
  have standard := standard.of_grown grown
  obtain ⟨o, f, holder, method, asIntN⟩ := standard.method (.named "BigInt")
    (.named "asIntN") (.bigint .asIntN) (by decide)
  obtain ⟨text, textThere, asText⟩ := standard.function (.named "String") (.string .make) (by decide)
  obtain ⟨number, numberThere, asNumber⟩ := standard.function (.named "Number") (.number .make) (by decide)
  have test : (Value.bigint (cutToBits true 64 n)).strictEq (.bigint n) = decide (Decimal.Fits n) := by
    change (Value.bigint (cutToBits true 64 n) == Value.bigint n) = _
    rw [Bool.eq_iff_iff, decide_eq_true_iff, ← cutToBits_eq_iff, beq_iff_eq, Value.bigint.injEq]
  refine gives_conditional (b := decide (Decimal.Fits n)) ?_ ?_
  · rw [engine_evaluate]
    apply gives_binary (x := .bigint (cutToBits true 64 n)) (y := .bigint n)
    · rw [engine_evaluate, evaluate_method]
      have arguments : Gives k (evaluateArguments (engine (d + 1)) ⟨i, true, false⟩
          [.number (.ofInt 64), .name (.ofString "v") ⟨1, 25⟩]) [.number (.ofInt 64), .bigint n] := by
        simp only [evaluateArguments, pure_bind]
        refine Gives.bind (.pure k _) ?_
        exact (gives_argument (gives_param call _)).bind (.pure k _)
      refine Gives.bind (gives_evaluateMethod call standard.unhidden "BigInt" "asIntN" (by decide)
        (by decide) rfl rfl holder method arguments _ _ _) ?_
      exact gives_asIntN (.object o) n asIntN
    · exact gives_param call _
    · exact test ▸ .pure k _
  · rw [engine_evaluate, narrowed]
    by_cases fits : Decimal.Fits n
    · simp only [fits, decide_true, if_true]
      exact gives_globalCall standard call "String" (by decide) (by decide) rfl textThere _ _ _
        (gives_text n asText)
    · simp only [fits, decide_false, Bool.false_eq_true, if_false]
      exact gives_globalCall standard call "Number" (by decide) (by decide) rfl numberThere _ _ _
        (gives_number n asNumber)

end Patchbay.Script
