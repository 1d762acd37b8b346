import Patchbay.Proofs.Script.Assign

/-!
What is told of an error that the engine itself has thrown. Its message and its traceback stand on the
error; its name is looked for along its prototypes, which a script may have changed. Where that calls no
getter, nothing that stood in the machine is changed by the telling.
-/
namespace Patchbay.Script

open Text

variable {m k : Machine} {α : Type}

def errorObject (kind : ErrorKind) (message trace : CodeUnits) : Obj where
  proto := some (Proto.ofError kind).ref
  payload := .error
  props := #[(.named "message", .hidden (.string message)), (.named "stack", .hidden (.string trace))]

theorem errorObject_made (kind : ErrorKind) (message trace : CodeUnits) :
    (({ proto := some (Proto.ofError kind).ref, payload := .error : Obj }).insert (.named "message")
      (.hidden (.string message))).insert (.named "stack") (.hidden (.string trace)) =
        errorObject kind message trace := by
  have apart : (Key.named "message" == Key.named "stack") = false := by decide
  simp [Obj.insert, errorObject, Array.findIdx?, Array.findIdx?.loop, apart]

theorem lookup?_errorObject (kind : ErrorKind) (message trace : CodeUnits) :
    (errorObject kind message trace).lookup? (.named "message") = some (.hidden (.string message)) ∧
      (errorObject kind message trace).lookup? (.named "stack") = some (.hidden (.string trace)) ∧
      (errorObject kind message trace).lookup? (.named "name") = none := by
  have apart : (Key.named "message" == Key.named "stack") = false ∧
      (Key.named "message" == Key.named "name") = false ∧
      (Key.named "stack" == Key.named "name") = false := by decide
  simp [Obj.lookup?, errorObject, apart]

/-- What the engine throws by itself, and the machine it leaves. -/
inductive Machine.Throws (m : Machine) (kind : ErrorKind) : Value → Machine → Prop
  | error {r : Ref} {k : Machine} (message trace : CodeUnits) (grown : m.Grown k)
      (made : k.heap[r]? = some (errorObject kind message trace)) : Throws m kind (.object r) k

theorem shownKey_run (key : Key) (m : Machine) : ∃ text, shownKey key m = .ok text m := by
  cases key <;> exact ⟨_, rfl⟩

theorem throwNew_run (kind : ErrorKind) (message : String) (m : Machine) :
    ∃ v k, (throwNew kind message : Run α) m = .error v k ∧ m.Throws kind v k := by
  have ends : Ends Never m (newError kind (.ofString (boundedMessage message)) (backtrace m.frames))
      fun r k => m.Throws kind (.object r) k := by
    unfold newError
    refine (ends_newObject m _ _).bind ?_
    rintro r k ⟨grown, fresh, there⟩
    refine (ends_modifyObject grown fresh there _).bind ?_
    rintro _ l ⟨later, changed⟩
    exact Ends.pure (.error _ _ later (changed.trans (congrArg some (errorObject_made _ _ _))))
  obtain ⟨r, k, made, throws⟩ := ends.total
  refine ⟨.object r, k, ?_, throws⟩
  unfold throwNew
  rw [machine_bind, run_bind made]
  rfl

theorem gives_quietly {x : Run α} {a : α} (gives : Gives m x a) : Gives m (quietly x) (some a) := by
  intro k grown
  obtain ⟨l, ran, later⟩ := gives k grown
  refine ⟨l, ?_, later⟩
  have mapped : (some <$> x) k = .ok (some a) l := by
    rw [map_eq_pure_bind, run_bind ran]
    rfl
  simp only [quietly, orElse, mapped]

section

variable {kind : ErrorKind} {message trace : CodeUnits} {r : Ref}
  (made : m.heap[r]? = some (errorObject kind message trace))
include made

theorem ownProperty?_error (key : Key) :
    m.ownProperty? r key = (errorObject kind message trace).lookup? key := by
  rw [Machine.ownProperty?, made]
  simp only [Option.getD_some, errorObject]

theorem property?_error {key : Key} {w : Value}
    (has : (errorObject kind message trace).lookup? key = some (.hidden w)) :
    m.property? r key = some w :=
  Machine.value?_eq_some.mpr ⟨true, false, true, .own made ((ownProperty?_error made key).trans has)⟩

theorem gives_coercedProperty (e : Engine) {name : String} {text : CodeUnits}
    (has : (errorObject kind message trace).lookup? (.named name) = some (.hidden (.string text))) :
    Gives m (coercedProperty e r name) text.toString?.toOption := by
  have found : Gives m (getNamed e r name) (.string text) :=
    gives_getProperty e rfl (property?_error made has)
  have text : Gives m (do
      let v ← getNamed e r name
      if v.isNullish then return none else return (← toText e v).toString?.toOption)
      text.toString?.toOption := found.bind (.pure m _)
  exact (gives_quietly text).bind (.pure m _)

theorem gives_describeThrown (e : Engine) {found : Option Property} {fuel : Nat} {w : Value}
    (limit : fuel + 1 = chainLimit)
    (seeks : m.Seeks (.named "name") found fuel (Proto.ofError kind).ref) (told : told? found = some w) :
    ∃ text, Gives m (describeThrown e (.object r)) text := by
  obtain ⟨hasMessage, hasStack, lacks⟩ := lookup?_errorObject kind message trace
  have found : Gives m (getNamed e r "name") w := by
    unfold getNamed getProperty
    rw [← limit]
    refine gives_getFrom_told e ?_ told _
    exact .above made rfl ((ownProperty?_error made _).trans lacks) rfl seeks
  obtain ⟨name, named⟩ : ∃ text, Gives m (errorName e r) text := by
    cases w with
    | string s => exact ⟨_, (gives_quietly found).bind (.pure m (s.toString?.toOption.getD ""))⟩
    | _ => exact ⟨_, (gives_quietly found).bind (.pure m "")⟩
  refine ⟨(headline name (message.toString?.toOption.getD ""), trace.toString?.toOption), ?_⟩
  unfold describeThrown
  refine (gives_payload made).bind (Gives.bind (.pure m true) ?_)
  exact (gives_coercedProperty made e hasMessage).bind
    (named.bind ((gives_coercedProperty made e hasStack).bind (.pure m _)))

end

end Patchbay.Script
