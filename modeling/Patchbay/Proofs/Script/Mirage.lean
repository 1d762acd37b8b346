import Patchbay.Proofs.Script.Items
import Patchbay.Proofs.Script.Lift

/-!
Proxies whose handlers answer for the prototype. What a handler answers is found to stand above the proxy, so an
object that has nothing of a set may be an instance of its maker.
-/
namespace Patchbay.Script

variable {m k : Machine} {e : Engine} {r target handler : Ref} {o q : Obj} {callable : Bool}

theorem gives_proxied? (there : m.heap[r]? = some o) (proxy : o.payload = .proxy target handler callable) :
    Gives m (proxied? r) (some (target, handler)) :=
  (gives_object there).bind (by rw [proxy]; exact .pure m _)

theorem gives_unproxied (there : m.heap[r]? = some o)
    (plain : ∀ target handler callable, o.payload ≠ .proxy target handler callable) :
    Gives m (proxied? r) none := by
  refine (gives_object there).bind ?_
  split
  · exact absurd ‹_› (plain _ _ _)
  · exact .pure m _

/-- A handler may name any object as the prototype, as long as its target may have another one. -/
theorem gives_prototypeOf_answer (there : m.heap[r]? = some o)
    (proxy : o.payload = .proxy target handler callable) {f : Value} (method : f.isNullish = false)
    (trap : m.property? handler (.named "getPrototypeOf") = some f) {p : Ref}
    (answers : Gives m (e.call f (.object handler) [.object target]) (.object p))
    (below : m.heap[target]? = some q)
    (plain : ∀ target handler callable, q.payload ≠ .proxy target handler callable)
    (extensible : q.extensible = true) : Gives m (prototypeOf e r) (some p) := by
  have free : Gives m (isExtensible e target) true := by
    rw [isExtensible, chainLimit_succ, extensibleFrom]
    refine (gives_unproxied below plain).bind ((gives_object below).bind ?_)
    rw [extensible]
    exact .pure m _
  have called : Gives m (answer? e handler "getPrototypeOf" [.object target]) (some (.object p)) := by
    refine Gives.bind (a := some f) ?_ (answers.bind (.pure m _))
    refine (gives_getProperty e rfl trap).bind ?_
    rw [method]
    exact .pure m _
  rw [prototypeOf, chainLimit_succ, protoFrom]
  refine (gives_proxied? there proxy).bind (called.bind (free.bind ?_))
  exact .pure m _

def mirageArrow : Arrow where
  source := .ofString "(x) => Set.prototype"
  param := .ofString "x"
  place := ⟨1, 1⟩
  body := .member (.name (.ofString "Set") ⟨1, 7⟩) (.ofString "prototype") ⟨1, 7⟩

/-- A machine as it begins, with `new Proxy({}, { getPrototypeOf: (x) => Set.prototype })` and its parts. -/
def mirageMachine : Machine :=
  let trap : Key × Property := (.named "getPrototypeOf", .plain (.object 375))
  { Machine.initial with
    heap := Machine.initial.heap ++ #[{ proto := some Proto.object.ref },
      { proto := some Proto.function.ref, payload := .closure mirageArrow.closure },
      { proto := some Proto.object.ref, props := #[trap] }, { proto := none, payload := .proxy 374 376 false }] }

theorem mirageMachine_ready :
    mirageMachine.Standard ∧ mirageMachine.Closed [377, 374, Proto.object.ref] ∧
      mirageMachine.property? 376 (.named "getPrototypeOf") = some (.object 375) := by
  rw [mirageMachine, Realm.initial_eq]
  decide +kernel

theorem mirageMachine_size : Machine.initial.heap.size = 374 := by
  rw [Realm.initial_eq]
  decide +kernel

theorem mirageMachine_heap :
    mirageMachine.heap[374]? = some { proto := some Proto.object.ref } ∧
      mirageMachine.heap[375]? =
        some { proto := some Proto.function.ref, payload := .closure mirageArrow.closure } ∧
      mirageMachine.heap[377]? = some { proto := none, payload := .proxy 374 376 false } := by
  unfold mirageMachine
  simp [mirageMachine_size]

-- All that follows goes by these three lemmas; a tactic that unfolds the machine runs the engine on it.
attribute [irreducible] mirageMachine

theorem evaluate_member (e : Engine) (c : Context) (o key : Name) (p q : Place) :
    evaluate e c (.member (.name o p) key q) = (do
      let base ← e.evaluate c (.name o p)
      reach q
      getValue e base (.ofUnits key)) := by
  simp [evaluate, access]

theorem gives_mirage (standard : m.Standard) {s : Ref} (made : mirageArrow.StandsAt m s) (d : Nat)
    (this v : Value) : Gives m ((engine (d + 4)).call (.object s) this [v]) (.object Proto.set.ref) := by
  refine .of_ends fun k grown => ends_callArrow (a := mirageArrow) ?_ this ?_ ?_
  · obtain ⟨o, there, closure⟩ := made
    exact ⟨o, grown.heap there, closure⟩
  · rintro w l frames ⟨rfl, later⟩
    exact ⟨rfl, later.frames frames⟩
  · intro l i later _ call
    have standard := (standard.of_grown grown).of_grown later
    obtain ⟨s, _, set, _, proto, _⟩ := standard.maker
    have named : Gives l ((engine (d + 1)).evaluate ⟨i, true, false⟩ (.name (.ofString "Set") ⟨1, 7⟩))
        (.object s) := by
      rw [engine_evaluate]
      exact gives_global call standard.unhidden "Set" (by decide) (by decide) rfl set _
    have reads : Gives l (evaluate (engine (d + 1)) ⟨i, true, false⟩ mirageArrow.body)
        (.object Proto.set.ref) := by
      unfold mirageArrow
      rw [evaluate_member]
      exact named.bind ((Gives.reach l _).bind (gives_getProperty _ rfl proto))
    refine reads.ends.mono ?_
    rintro _ j ⟨rfl, last⟩
    exact ⟨rfl, later.trans last⟩

theorem gives_setInstance_mirage : Gives mirageMachine (setInstance askingEngine (.object 377)) true := by
  obtain ⟨standard, -, trap⟩ := mirageMachine_ready
  obtain ⟨target, arrow, proxy⟩ := mirageMachine_heap
  have answers := gives_mirage standard ⟨_, arrow, rfl⟩ 2490 (.object 376) (.object 374)
  have above : Gives mirageMachine (prototypeOf askingEngine 377) (some Proto.set.ref) :=
    gives_prototypeOf_answer proxy rfl rfl trap answers target nofun rfl
  rw [setInstance, chainLimit_succ, inheritsFrom]
  exact above.bind (.pure _ true)

theorem mirageMachine_undisturbed : mirageMachine.Undisturbed (.object 377) := by
  obtain ⟨standard, closed, -⟩ := mirageMachine_ready
  refine Machine.undisturbed standard ?_ gives_setInstance_mirage
  rintro _ ⟨⟩
  exact closed.grounded (.head _)

end Patchbay.Script
