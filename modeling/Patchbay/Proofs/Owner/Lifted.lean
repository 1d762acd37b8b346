import Patchbay.Proofs.Script.Mirage
import Patchbay.Owner

/-!
What an owner replies to an expression, by the kind of its value. That the names by which the lift goes are
as the language has them, and are so behind the question whether the value is a set, is taken for granted.
-/
namespace Patchbay

open Script Text

theorem Lifted.encode?_eq_none (x : Lifted) : x.encode? = none ↔ ∃ kind, x = .bare kind := by
  cases x <;> simp [encode?, Lifted.scalar?]

namespace Script

variable {m : Machine} {v : Value}

theorem Machine.scalar_of_kindOf {answer : Except Value Bool} {x : Lifted}
    (kind : m.kindOf v answer = .scalar x) : v.scalar = .ok (some x) := by
  unfold Machine.kindOf at kind
  repeat' split at kind
  all_goals cases kind
  assumption

theorem Machine.kindOf_set (m : Machine) (r : Ref) : m.kindOf (.object r) (.ok true) = .collection := by
  simp [Machine.kindOf, Value.scalar]

theorem Kind.Tells.encodes {kind : Kind} {x : Lifted} (tells : kind.Tells (.ok x))
    (scalar : ∀ y, kind = .scalar y → y.encode? ≠ none) : x.encode? = none ↔ kind.isBare = true := by
  cases kind with
  | scalar y =>
    cases tells
    simp [Kind.isBare, scalar x rfl]
  | loneSurrogate index => cases tells
  | collection =>
    have holds : x.isCollection = true := tells x rfl
    cases x with
    | collection items => simp [Kind.isBare, Lifted.encode?]
    | _ => cases holds
  | bare kind =>
    cases tells
    simp [Kind.isBare, Lifted.encode?_eq_none]
  | throws thrown => cases tells

/-- What a value became has no form on the wire exactly if its kind has none. -/
theorem encode?_of_kind {answer : Except Value Bool} {k : Machine} {x : Lifted}
    (ends : (m.kindOf v answer).Ends m (lift mainEngine v))
    (ran : (lift mainEngine v).run m = .ok (.ok x) k) :
    x.encode? = none ↔ (m.kindOf v answer).isBare = true := by
  refine (ends.ok ran : (m.kindOf v answer).Tells (.ok x)).encodes fun y kind => ?_
  obtain ⟨a, -, encodes⟩ := Value.encode?_scalar (Machine.scalar_of_kindOf kind)
  simp [encodes]

end Script

namespace Namespace

theorem settle_lift {bytes : Utf8.Bytes} {m k : Machine} {v : Value}
    (valued : (runBytes bytes true).run.run k = .ok (.ok v) m) :
    settle (liftBytes bytes) k =
      match (lift mainEngine v).run m with
      | .ok (.ok x) l => (.ok x, l)
      | .ok (.error index) l => (.error (.loneSurrogate index), l)
      | .error thrown l => (.error (.thrown thrown), l) := by
  have first : (liftBytes bytes).run.run k =
      ((lift mainEngine v).run >>= fun r => pure (r.mapError .loneSurrogate)) m := by
    rw [liftBytes, ExceptT.run_bind]
    refine (run_bind valued).trans (congrFun ((ExceptT.run_bind_lift _ _).trans ?_) m)
    congr 1
    funext r
    cases r <;> rfl
  simp only [settle, first]
  cases lifted : (lift mainEngine v).run m with
  | ok r l =>
    rw [run_bind lifted]
    cases r <;> rfl
  | error w l => rw [run_bind_error lifted]

end Namespace

namespace Owner

variable {o : Owner} {source : String} {v : Value} {m : Machine}
  (text : isAllBlank source.toList = false)
  (valued : (Namespace.runBytes (Namespace.parenthesized source) true).run.run o.scripts.machine =
    .ok (.ok v) m)
include text valued

theorem evaluate_lifted {x : Lifted} {k : Machine} (lifted : (lift mainEngine v).run m = .ok (.ok x) k) :
    (o.evaluate source).events = (x.encode?.toList.map fun r => o.emit .reply (.value r)) ++ [o.signal] := by
  have settled := Namespace.settle_lift valued
  rw [lifted] at settled
  simp only [evaluate, Namespace.evaluate, text, Bool.false_eq_true, if_false, Namespace.attempt, settled]
  rfl

theorem evaluate_unlifted (unlifted : ∀ x k, (lift mainEngine v).run m ≠ .ok (.ok x) k) :
    ∃ d, (o.evaluate source).events = [.reported d] := by
  have settled := Namespace.settle_lift valued
  have failed : ∃ fault k, Namespace.settle (Namespace.liftBytes (Namespace.parenthesized source))
      o.scripts.machine = (.error fault, k) := by
    rw [settled]
    split
    · exact absurd ‹_› (unlifted _ _)
    · exact ⟨_, _, rfl⟩
    · exact ⟨_, _, rfl⟩
  obtain ⟨fault, k, failed⟩ := failed
  simp only [evaluate, Namespace.evaluate, text, Bool.false_eq_true, if_false, Namespace.attempt, failed]
  exact ⟨_, rfl⟩

theorem evaluate_signals {answer : Except Value Bool}
    (ends : (m.kindOf v answer).Ends m (lift mainEngine v)) :
    (o.evaluate source).events = [o.signal] ↔ (m.kindOf v answer).isBare = true := by
  by_cases lifted : ∃ x k, (lift mainEngine v).run m = .ok (.ok x) k
  · obtain ⟨x, k, lifted⟩ := lifted
    rw [evaluate_lifted text valued lifted, ← encode?_of_kind ends lifted]
    cases x.encode? <;> simp
  · simp only [not_exists] at lifted
    obtain ⟨d, reported⟩ := evaluate_unlifted text valued lifted
    rw [reported]
    constructor
    · intro signals
      cases signals
    · intro bare
      cases kind : m.kindOf v answer with
      | bare b =>
        rw [kind] at ends
        obtain ⟨_, k, ran, rfl⟩ := Ends.total ends
        exact absurd ran (lifted _ _)
      | _ =>
        rw [kind] at bare
        cases bare

end Owner

end Patchbay
