import Patchbay.Proofs.Script.Lookup

/-!
Small scripts of one kind: an arrow function of one parameter that gives the value of an expression. What
such a function makes of a value is what the expression makes of it in a scope that holds the value under
the name of the parameter, with the global names around it.
-/
namespace Patchbay.Script

open Text

variable {t : Value → Prop} {m k : Machine}

theorem ends_newObject (m : Machine) (proto : Proto) (payload : Payload) :
    Ends t m (newObject proto payload) fun r k => m.Grown k ∧ m.heap[r]? = none ∧
      k.heap[r]? = some { proto := some proto.ref, payload := payload } :=
  .of_ok rfl ⟨(Machine.Grown.refl m).push _, Array.getElem?_size, Array.getElem?_push_size⟩

theorem ends_modifyObject (grown : m.Grown k) {r : Ref} (fresh : m.heap[r]? = none) {o : Obj}
    (there : k.heap[r]? = some o) (f : Obj → Obj) :
    Ends t k (modifyObject r f) fun _ l => m.Grown l ∧ l.heap[r]? = some (f o) := by
  refine .of_ok rfl ⟨grown.modify fresh f, ?_⟩
  change (k.heap.modify r f)[r]? = _
  rw [Array.getElem?_modify, if_pos rfl, there]
  rfl

theorem ends_newScope (m : Machine) (outer : Nat) (names : List (Name × Binding)) :
    Ends t m (newScope outer names) fun i k => m.Grown k ∧ m.scopes[i]? = none ∧
      k.scopes[i]? = some ⟨some outer, names⟩ :=
  .of_ok rfl ⟨(Machine.Grown.refl m).pushScope _, Array.getElem?_size, Array.getElem?_push_size⟩

theorem ends_bindIn (grown : m.Grown k) {i : Nat} (fresh : m.scopes[i]? = none) {s : Scope}
    (there : k.scopes[i]? = some s) (n : Name) (b : Binding) :
    Ends t k (bindIn i n b) fun _ l => m.Grown l ∧
      l.scopes[i]? = some { s with names := rebind n b s.names } := by
  refine .of_ok rfl ⟨grown.rebind fresh _, ?_⟩
  change (k.scopes.modify i _)[i]? = _
  rw [Array.getElem?_modify, if_pos rfl, there]
  rfl

theorem Obj.payload_insert (o : Obj) (key : Key) (p : Property) : (o.insert key p).payload = o.payload := by
  unfold Obj.insert
  split <;> rfl

theorem Obj.proto_insert (o : Obj) (key : Key) (p : Property) : (o.insert key p).proto = o.proto := by
  unfold Obj.insert
  split <;> rfl

theorem ends_frameName (m : Machine) (f : Ref) : Ends t m (frameName f) fun _ k => k = m := by
  unfold frameName
  refine Ends.bind (P := fun _ k => k = m) (.of_ok rfl rfl) ?_
  rintro o _ rfl
  split <;> exact .pure rfl

section

variable {d : Nat} {x : Expr}

/-- A strict script of one expression ends as the expression does, with its value. -/
theorem ends_runExpr {P : Value → Machine → Prop}
    (ends : ∀ k, m.Grown k → Ends t k ((engine (d + 1)).evaluate ⟨0, true, true⟩ x) P)
    (loose : ∀ v k frames w, P v k → P v { k with frames := frames, completion := w }) :
    Ends t m (runProgram (engine (d + 2)) ⟨[.expr x], [], true⟩) P := by
  unfold runProgram
  refine Ends.withFrame _ ?_ fun v k frames holds => loose v k frames k.completion holds
  have declared : declareGlobals ⟨[.expr x], [], true⟩ = pure () := rfl
  rw [declared, pure_bind]
  refine Ends.get (Ends.modify ?_)
  have begun : m.Grown { m with frames := scriptFrame :: m.frames, completion := .undefined } :=
    ⟨fun there => there, fun there => there, rfl⟩
  refine Ends.bind (P := fun _ k => P k.completion k) ?_ ?_
  · -- The expression is the one statement, and so its value is that of the script.
    change Ends t _ (((engine (d + 1)).evaluate ⟨0, true, true⟩ x >>= fun v =>
      modify (fun m => { m with completion := v }) >>= fun _ => pure Flow.normal) >>= fun flow => _) _
    rw [bind_assoc]
    refine (ends _ begun).bind ?_
    intro v k holds
    exact .of_ok rfl (loose v k k.frames v holds)
  · intro _ k holds
    exact .of_ok rfl (loose _ k k.frames _ holds)

theorem gives_runExpr {v : Value} (gives : Gives m ((engine (d + 1)).evaluate ⟨0, true, true⟩ x) v) :
    Gives m (runProgram (engine (d + 2)) ⟨[.expr x], [], true⟩) v := by
  refine Gives.of_ends fun k grown => ends_runExpr (fun l later => ?_) ?_
  · refine (gives.of_grown (grown.trans later)).ends.mono ?_
    rintro _ j ⟨rfl, last⟩
    exact ⟨rfl, later.trans last⟩
  · rintro _ l frames w ⟨rfl, later⟩
    exact ⟨rfl, (later.frames frames).completion w⟩

end

structure Arrow where
  source : CodeUnits
  param : Name
  place : Place
  body : Expr

namespace Arrow

def tree (a : Arrow) : Function :=
  .mk ⟨default, .arrow, false, false, true, [], false, 1, false, a.source⟩
    [.leaf (.name a.param a.place)] [.returns (some a.body)]

def program (a : Arrow) : Program := ⟨[.expr (.function a.tree)], [], true⟩

def IsRead (a : Arrow) (text : String) : Prop :=
  Parser.parse nestingLimit (Source.ofBytes (Utf8.ofString text)) true = .ok a.program

def closure (a : Arrow) : Closure := { tree := a.tree, scope := 0, home := none }

def StandsAt (a : Arrow) (m : Machine) (r : Ref) : Prop :=
  ∃ o, m.heap[r]? = some o ∧ o.payload = .closure a.closure

end Arrow

/-- The parameter of a call that is under way, in a scope of its own. -/
def Machine.InCall (m : Machine) (i : Nat) (n : Name) (v : Value) : Prop :=
  m.scopes[i]? = some ⟨some 0, [(n, ⟨some v, .variable⟩)]⟩

variable (a : Arrow)

theorem ends_functionValue (m : Machine) :
    Ends t m (functionValue 0 a.tree) fun v k => ∃ r, v = .object r ∧ m.Grown k ∧ a.StandsAt k r := by
  change Ends t m (makeFunction 0 a.tree none >>= fun r => pure (Value.object r)) _
  refine Ends.bind (P := fun r k => m.Grown k ∧ a.StandsAt k r) ?_ ?_
  · unfold makeFunction
    refine (ends_newObject m _ _).bind ?_
    rintro r k ⟨grown, fresh, there⟩
    refine (ends_modifyObject grown fresh there _).bind ?_
    rintro _ l ⟨later, changed⟩
    exact Ends.pure ⟨later, _, changed, by rw [Obj.payload_insert, Obj.payload_insert]; rfl⟩
  · rintro r k made
    exact Ends.pure ⟨r, rfl, made⟩

theorem ends_runProgram (d : Nat) (m : Machine) :
    Ends t m (runProgram (engine (d + 2)) a.program) fun v k =>
      ∃ r, v = .object r ∧ m.Grown k ∧ a.StandsAt k r := by
  refine ends_runExpr (fun k grown => (ends_functionValue a k).mono ?_) ?_
  · rintro _ l ⟨r, rfl, later, made⟩
    exact ⟨r, rfl, grown.trans later, made⟩
  · rintro _ k frames w ⟨r, rfl, grown, made⟩
    exact ⟨r, rfl, (grown.frames frames).completion w, made⟩

section

variable {a} {d : Nat} {v : Value} {Q : Value → Machine → Prop}

theorem ends_bindParam (e : Engine) (m : Machine) {k : Machine} (grown : m.Grown k) {i : Nat}
    (fresh : m.scopes[i]? = none) {n : Name} (place : Place)
    (there : k.scopes[i]? = some ⟨some 0, [(n, ⟨none, .variable⟩)]⟩) (v : Value) :
    Ends t k (bindItems e ⟨i, true, false⟩ (some .lexical) [.leaf (.name n place)] [v]) fun _ l =>
      m.Grown l ∧ l.InCall i n v := by
  change Ends t k (bindIn i n ⟨some v, .variable⟩ >>= fun _ => pure ()) _
  refine (ends_bindIn grown fresh there n ⟨some v, .variable⟩).bind ?_
  rintro _ j ⟨last, changed⟩
  refine .pure ⟨last, ?_⟩
  rw [Machine.InCall, changed]
  simp [rebind]

theorem ends_runBody {m : Machine} (r : Ref) (this : Option Value) (target : Value)
    (body : ∀ k i, m.Grown k → m.scopes[i]? = none → k.InCall i a.param v →
      Ends t k (evaluate (engine d) ⟨i, true, false⟩ a.body) Q) :
    Ends t m (runBody (engine (d + 2)) r a.closure this target [v]) fun p k => Q p.2.value k := by
  change Ends t m (newScope 0 [(a.param, ⟨none, .variable⟩)] >>= fun i =>
    bindItems (engine (d + 2)) ⟨i, true, false⟩ (some .lexical) [.leaf (.name a.param a.place)] [v] >>=
      fun _ => executeAll (engine (d + 2)) ⟨i, true, false⟩ [.returns (some a.body)] >>=
        fun flow => pure (i, flow)) _
  refine (ends_newScope m 0 _).bind ?_
  rintro i k ⟨grown, fresh, there⟩
  refine (ends_bindParam (engine (d + 2)) m grown fresh a.place there v).bind ?_
  rintro _ l ⟨later, call⟩
  change Ends t l (((evaluate (engine d) ⟨i, true, false⟩ a.body >>= fun v => pure (Flow.returns v)) >>=
    _) >>= fun flow => pure (i, flow)) _
  rw [bind_assoc, bind_assoc]
  refine (body l i later fresh call).bind ?_
  intro w j ends
  exact .of_ok rfl ends

theorem ends_callArrow {m : Machine} {r : Ref} (made : a.StandsAt m r) (this : Value)
    (framed : ∀ w k frames, Q w k → Q w { k with frames := frames })
    (body : ∀ k i, m.Grown k → m.scopes[i]? = none → k.InCall i a.param v →
      Ends t k (evaluate (engine d) ⟨i, true, false⟩ a.body) Q) :
    Ends t m ((engine (d + 3)).call (.object r) this [v]) Q := by
  obtain ⟨o, there, closure⟩ := made
  change Ends t m (payload r >>= fun p => _) _
  refine (gives_payload there).then_ends ?_
  intro k grown
  rw [closure]
  change Ends t k (frameName r >>= fun name => withFrame ⟨name, false, ⟨1, 0⟩⟩
    (runBody (engine (d + 2)) r a.closure (some .undefined) .undefined [v] >>=
      fun p => pure p.2.value)) _
  refine (ends_frameName k r).bind ?_
  rintro name _ rfl
  refine Ends.withFrame _ ?_ framed
  refine (ends_runBody r (some .undefined) .undefined ?_).bind fun _ _ ends => .pure ends
  intro l i later fresh call
  exact body l i ((grown.frames _).trans later) ((grown.frames _).absentScope fresh) call

theorem Arrow.IsRead.applyScript {text : String} (read : a.IsRead text) (e : Engine) :
    applyScript e text = fun v => runProgram e a.program >>= fun f => e.call f .undefined [v] := by
  funext v
  unfold Script.applyScript runSource
  rw [Arrow.IsRead] at read
  rw [read]

/-- A text that reads as an arrow function does to a value what the body of the function does. -/
theorem ends_applyScript {m : Machine} {text : String} (read : a.IsRead text)
    (framed : ∀ w k frames, Q w k → Q w { k with frames := frames })
    (body : ∀ k i, m.Grown k → m.scopes[i]? = none → k.InCall i a.param v →
      Ends t k (evaluate (engine d) ⟨i, true, false⟩ a.body) Q) :
    Ends t m (applyScript (engine (d + 3)) text v) Q := by
  rw [read.applyScript]
  refine (ends_runProgram a (d + 1) m).bind ?_
  rintro _ k ⟨r, rfl, grown, made⟩
  refine ends_callArrow made .undefined framed fun l i later fresh => ?_
  exact body l i (grown.trans later) (grown.absentScope fresh)

theorem gives_applyScript {m : Machine} {text : String} (read : a.IsRead text) {w : Value}
    (body : ∀ k i, m.Grown k → k.InCall i a.param v →
      Gives k (evaluate (engine d) ⟨i, true, false⟩ a.body) w) :
    Gives m (applyScript (engine (d + 3)) text v) w := by
  refine .of_ends fun k grown => ends_applyScript read ?_ ?_
  · rintro _ l frames ⟨rfl, later⟩
    exact ⟨rfl, later.frames frames⟩
  · intro l i later _ call
    refine (body l i (grown.trans later) call).ends.mono ?_
    rintro _ j ⟨rfl, last⟩
    exact ⟨rfl, later.trans last⟩

end

end Patchbay.Script
