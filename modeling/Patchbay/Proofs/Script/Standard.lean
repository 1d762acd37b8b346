import Patchbay.Proofs.Script.Reading

/-!
What the scripts of the lift do where the names that they use still mean what the language gave them. The
functions behind the names are followed into the engine; each is found by its path from the global object.
-/
namespace Patchbay.Script

open Text

variable {t : Value → Prop} {m k : Machine} {e : Engine} {v w : Value}

theorem engine_evaluate (d : Nat) : (engine (d + 1)).evaluate = evaluate (engine d) := rfl

theorem evaluate_call (e : Engine) (c : Context) (f : Name) (args : List Expr) (p q : Place) :
    evaluate e c (.call (.name f p) args q) = (do
      let f ← e.evaluate c (.name f p)
      let args ← evaluateArguments e c args
      reach q
      e.call f .undefined args) := by
  simp [evaluate, access]

def evaluateMethod (e : Engine) (c : Context) (o key : Name) (args : List Expr) (p q r : Place) :
    Run (Value × Value × List Value) := do
  let this ← e.evaluate c (.name o p)
  reach q
  let f ← getValue e this (.ofUnits key)
  let args ← evaluateArguments e c args
  reach r
  return (this, f, args)

theorem evaluate_method (e : Engine) (c : Context) (o key : Name) (args : List Expr) (p q r : Place) :
    evaluate e c (.call (.member (.name o p) key q) args r) =
      evaluateMethod e c o key args p q r >>= fun x => e.call x.2.1 x.1 x.2.2 := by
  simp [evaluate, access, evaluateMethod]

theorem gives_conditional {c : Context} {test yes no : Expr} {b : Bool}
    (tests : Gives m (e.evaluate c test) (.bool b))
    (branch : Gives m (e.evaluate c (if b then yes else no)) v) :
    Gives m (evaluate e c (.conditional test yes no)) v := by
  refine tests.bind ?_
  cases b with
  | true => exact branch
  | false => exact branch

theorem ends_conditional {c : Context} {test yes no : Expr} {L : Bool → Machine → Prop}
    {Q : Value → Machine → Prop}
    (tests : Ends t m (e.evaluate c test) fun w k => ∃ b, w = .bool b ∧ L b k)
    (branch : ∀ b k, L b k → Ends t k (e.evaluate c (if b then yes else no)) Q) :
    Ends t m (evaluate e c (.conditional test yes no)) Q := by
  refine tests.bind ?_
  rintro _ k ⟨b, rfl, told⟩
  cases b with
  | true => exact branch true k told
  | false => exact branch false k told

theorem gives_binary {c : Context} {op : BinaryOp} {a b : Expr} {x y : Value}
    (left : Gives m (e.evaluate c a) x) (right : Gives m (e.evaluate c b) y)
    (result : Gives m (binaryOp e op x y) v) : Gives m (evaluate e c (.binary op a b)) v :=
  left.bind (right.bind result)

theorem ends_binary {c : Context} {op : BinaryOp} {a b : Expr} {x y : Value} {Q : Value → Machine → Prop}
    (left : Gives m (e.evaluate c a) x) (right : Gives m (e.evaluate c b) y)
    (result : ∀ k, m.Grown k → Ends t k (binaryOp e op x y) Q) :
    Ends t m (evaluate e c (.binary op a b)) Q :=
  left.then_ends fun _ grown => (right.of_grown grown).then_ends fun l later =>
    result l (grown.trans later)

theorem ends_or {c : Context} {a b : Expr} {L : Bool → Machine → Prop} {Q : Value → Machine → Prop}
    (left : Ends t m (e.evaluate c a) fun w k => ∃ x, w = .bool x ∧ L x k)
    (holds : ∀ k, L true k → Q (.bool true) k) (right : ∀ k, L false k → Ends t k (e.evaluate c b) Q) :
    Ends t m (evaluate e c (.logical .or a b)) Q := by
  refine left.bind ?_
  rintro _ k ⟨x, rfl, told⟩
  cases x with
  | true => exact .pure (holds k told)
  | false => exact right k told

theorem gives_argument {c : Context} {n : Name} {p : Place} (value : Gives m (e.evaluate c (.name n p)) v) :
    Gives m (evaluateArguments e c [.name n p]) [v] := by
  simp only [evaluateArguments, pure_bind]
  exact value.bind (.pure m _)

def liftNames : List String := ["Set", "ArrayBuffer", "Array", "BigInt", "String", "Number", "undefined"]

/-- No script has hidden one of the names behind one of its own. -/
def Machine.Unhidden (m : Machine) : Prop :=
  ∃ s ∈ m.scopes[0]?, s.outer = none ∧
    ∀ name ∈ liftNames, s.names.lookup (CodeUnits.ofString name) = none

instance (m : Machine) : Decidable m.Unhidden :=
  inferInstanceAs (Decidable (∃ s ∈ m.scopes[0]?, s.outer = none ∧
    ∀ name ∈ liftNames, s.names.lookup (CodeUnits.ofString name) = none))

theorem gives_readName_own {i : Nat} {n : Name} {b : Binding} (value : b.value = some v)
    (found : ∀ k, m.Grown k → findScope k n (i + 1) i = some (i, b)) : Gives m (readName e i n) v := by
  apply Gives.of_run
  intro k grown
  have looked : lookupScope i n k = .ok (some (i, b)) k := congrArg (EStateM.Result.ok · k) (found k grown)
  have read : readName? e i n k = .ok (some v) k := by
    unfold readName?
    rw [run_bind looked]
    simp only [value]
    rfl
  unfold readName
  rw [run_bind read]
  rfl

theorem gives_readName_global {i : Nat} {n : Name}
    (free : ∀ k, m.Grown k → findScope k n (i + 1) i = none) (name : (Key.ofUnits n).isName)
    (found : m.property? Proto.global.ref (.ofUnits n) = some v) : Gives m (readName e i n) v := by
  have looked : Gives m (lookupScope i n) none :=
    .of_run fun k grown => congrArg (EStateM.Result.ok · k) (free k grown)
  have read : Gives m (readName? e i n) (some v) :=
    looked.bind ((gives_hasProperty e name found).bind
      ((gives_getProperty e name found).bind (.pure m _)))
  exact read.bind (.pure m _)

theorem gives_param {i : Nat} {n : Name} (call : m.InCall i n v) (p : Place) :
    Gives m (evaluate e ⟨i, true, false⟩ (.name n p)) v := by
  refine (Gives.reach m p).bind (gives_readName_own (b := ⟨some v, .variable⟩) rfl ?_)
  intro k grown
  have there := grown.scopes call
  simp [findScope, there]

theorem findScope_global {i : Nat} {n : Name} (call : m.InCall i n v) (unhidden : m.Unhidden) {name : String}
    (listed : name ∈ liftNames) (apart : CodeUnits.ofString name ≠ n) :
    findScope m (.ofString name) (i + 1) i = none := by
  obtain ⟨s, outermost, outer, free⟩ := unhidden
  have lacks : [(n, (⟨some v, .variable⟩ : Binding))].lookup (CodeUnits.ofString name) = none := by
    rw [List.lookup_cons, beq_false_of_ne apart]
    rfl
  simp only [findScope, Machine.InCall] at call ⊢
  rw [call]
  simp only [lacks, Option.bind_some]
  cases i with
  | zero => rfl
  | succ i =>
    simp only [findScope, Option.mem_def.mp outermost, free name listed, outer, Option.bind_none]

theorem Machine.Grown.unhidden (grown : m.Grown k) (unhidden : m.Unhidden) : k.Unhidden := by
  obtain ⟨s, outermost, outer, free⟩ := unhidden
  exact ⟨s, grown.scopes outermost, outer, free⟩

theorem gives_global {i : Nat} {n : Name} (call : m.InCall i n v) (unhidden : m.Unhidden) (name : String)
    (listed : name ∈ liftNames) (apart : CodeUnits.ofString name ≠ n)
    (key : Key.ofUnits (.ofString name) = .named name)
    (found : m.property? Proto.global.ref (.named name) = some w) (p : Place) :
    Gives m (evaluate e ⟨i, true, false⟩ (.name (.ofString name) p)) w := by
  refine (Gives.reach m p).bind (gives_readName_global ?_ (key ▸ rfl) (key ▸ found))
  intro k grown
  exact findScope_global (grown.scopes call) (grown.unhidden unhidden) listed apart

theorem gives_evaluateMethod {d i : Nat} {n : Name} (call : m.InCall i n v) (unhidden : m.Unhidden)
    (name key : String) (listed : name ∈ liftNames) (apart : CodeUnits.ofString name ≠ n)
    (spelled : Key.ofUnits (.ofString name) = .named name)
    (spelledKey : Key.ofUnits (.ofString key) = .named key) {o : Ref}
    (holder : m.property? Proto.global.ref (.named name) = some (.object o))
    (method : m.property? o (.named key) = some w) {args : List Expr} {values : List Value}
    (arguments : Gives m (evaluateArguments (engine (d + 1)) ⟨i, true, false⟩ args) values)
    (p q r : Place) :
    Gives m (evaluateMethod (engine (d + 1)) ⟨i, true, false⟩ (.ofString name) (.ofString key) args p q r)
      (.object o, w, values) := by
  refine Gives.bind (gives_global call unhidden name listed apart spelled holder p) ?_
  refine (Gives.reach m q).bind (Gives.bind (a := w) ?_ ?_)
  · exact spelledKey ▸ gives_getProperty _ rfl method
  exact arguments.bind ((Gives.reach m r).bind (.pure m _))

theorem Machine.native?_eq_some {v : Value} {f : Native} :
    m.native? v = some f ↔ ∃ r o, v = .object r ∧ m.heap[r]? = some o ∧ o.payload = .native f := by
  constructor
  · intro found
    unfold Machine.native? at found
    split at found
    · rename_i r
      cases there : m.heap[r]? with
      | none => simp [there] at found
      | some o =>
        rw [there] at found
        cases payload : o.payload with
        | native g =>
          simp only [Option.map_some, payload, Option.some.injEq] at found
          exact ⟨r, o, rfl, there, found ▸ payload⟩
        | _ => simp [payload] at found
    · cases found
  · rintro ⟨r, o, rfl, there, payload⟩
    simp [Machine.native?, there, payload]

theorem Machine.Shaped.native? (shaped : m.Shaped k) {f : Native} (found : m.native? v = some f) :
    k.native? v = some f := by
  obtain ⟨r, o, rfl, there, payload⟩ := Machine.native?_eq_some.mp found
  obtain ⟨p, here, -, same⟩ := shaped r o there
  exact Machine.native?_eq_some.mpr ⟨r, p, rfl, here, same.trans payload⟩

theorem Machine.Grown.native? (grown : m.Grown k) {f : Native} (found : m.native? v = some f) :
    k.native? v = some f :=
  grown.shaped.native? found

theorem ends_callNative {d : Nat} {r : Ref} {f : Native} {this : Value} {args : List Value}
    {Q : Value → Machine → Prop} (function : m.native? (.object r) = some f)
    (language : ∀ h, f ≠ .host h) (framed : ∀ w k frames, Q w k → Q w { k with frames := frames })
    (body : ∀ k, m.Grown k → Ends t k (f.run ⟨engine d, r, this, args, none⟩) Q) :
    Ends t m ((engine (d + 1)).call (.object r) this args) Q := by
  obtain ⟨_, o, ⟨⟩, there, native⟩ := Machine.native?_eq_some.mp function
  change Ends t m (payload r >>= fun p => _) _
  refine (gives_payload there).then_ends ?_
  intro k grown
  rw [native]
  change Ends t k (callNative (engine d) r f this args none) Q
  unfold callNative
  split
  · exact absurd rfl (language _)
  · refine (ends_frameName k r).bind ?_
    rintro name _ rfl
    refine Ends.withFrame _ (body _ ⟨grown.heap, grown.scopes, grown.limit⟩) framed

theorem gives_callNative {d : Nat} {r : Ref} {f : Native} {this : Value} {args : List Value}
    (function : m.native? (.object r) = some f) (language : ∀ h, f ≠ .host h)
    (body : Gives m (f.run ⟨engine d, r, this, args, none⟩) w) :
    Gives m ((engine (d + 1)).call (.object r) this args) w := by
  refine .of_ends fun k grown => ends_callNative (grown.native? function) language ?_ ?_
  · rintro _ l frames ⟨rfl, later⟩
    exact ⟨rfl, later.frames frames⟩
  · intro l later
    refine (body.of_grown (grown.trans later)).ends.mono ?_
    rintro _ j ⟨rfl, last⟩
    exact ⟨rfl, later.trans last⟩

theorem Machine.follow?_keeps {path : List Key} (keeps : ∀ key ∈ path, m.Keeps k key)
    (names : ∀ key ∈ path, key.isName) {v : Value} (found : m.follow? v path = some w) :
    k.follow? v path = some w := by
  induction path generalizing v with
  | nil => exact found
  | cons key rest ih =>
    cases v with
    | object r =>
      obtain ⟨x, first, more⟩ := Option.bind_eq_some_iff.mp found
      rw [Machine.follow?, (keeps key (.head _)).property? (names key (.head _)) first]
      exact ih (fun other member => keeps other (.tail _ member))
        (fun other member => names other (.tail _ member)) more
    | _ => cases found

def Machine.global? (m : Machine) (path : List Key) : Option Value := m.follow? globalValue path

/-- The functions of the language that the scripts of the lift call, under their paths. -/
def liftFunctions : List (List Key × Native) :=
  [([.named "Set"], .set .make),
    ([.named "Set", .symbol symbolHasInstance], .function .hasInstance),
    ([.named "ArrayBuffer", .named "isView"], .buffer .isView),
    ([.named "Array", .named "from"], .list .from_),
    ([.named "BigInt", .named "asIntN"], .bigint .asIntN),
    ([.named "String"], .string .make),
    ([.named "Number"], .number .make)]

/-- The names of the language by which the scripts of the lift go still mean what they did. -/
structure Machine.Standard (m : Machine) : Prop where
  unhidden : m.Unhidden
  undefined : m.global? [.named "undefined"] = some .undefined
  sets : m.global? [.named "Set", .named "prototype"] = some (.object Proto.set.ref)
  functions : ∀ f ∈ liftFunctions, (m.global? f.1).bind m.native? = some f.2

instance (m : Machine) : Decidable m.Standard :=
  decidable_of_iff (m.Unhidden ∧ m.global? [.named "undefined"] = some .undefined ∧
    m.global? [.named "Set", .named "prototype"] = some (.object Proto.set.ref) ∧
    ∀ f ∈ liftFunctions, (m.global? f.1).bind m.native? = some f.2)
    ⟨fun ⟨unhidden, undefined, sets, functions⟩ => ⟨unhidden, undefined, sets, functions⟩,
      fun standard => ⟨standard.unhidden, standard.undefined, standard.sets, standard.functions⟩⟩

def liftKeys : List Key :=
  [.named "undefined", .named "Set", .named "prototype", .symbol symbolHasInstance, .named "ArrayBuffer",
    .named "isView", .named "Array", .named "from", .named "BigInt", .named "asIntN", .named "String",
    .named "Number"]

theorem Machine.Standard.of_keeps (standard : m.Standard) (unhidden : k.Unhidden)
    (keeps : ∀ key ∈ liftKeys, m.Keeps k key) : k.Standard := by
  have follow {path : List Key} (listed : ∀ key ∈ path, key ∈ liftKeys) {v : Value}
      (found : m.global? path = some v) : k.global? path = some v :=
    Machine.follow?_keeps (fun key member => keeps key (listed key member))
      (fun key member => (by decide : ∀ key ∈ liftKeys, key.isName) key (listed key member)) found
  refine ⟨unhidden, follow (by decide) standard.undefined, follow (by decide) standard.sets, ?_⟩
  intro f listed
  obtain ⟨v, path, native⟩ := Option.bind_eq_some_iff.mp (standard.functions f listed)
  rw [follow ((by decide : ∀ f ∈ liftFunctions, ∀ key ∈ f.1, key ∈ liftKeys) f listed) path]
  exact (keeps _ (.head _)).shaped.native? native

theorem Machine.Standard.of_grown (standard : m.Standard) (grown : m.Grown k) : k.Standard :=
  standard.of_keeps (grown.unhidden standard.unhidden) fun key _ => grown.keeps key

theorem Machine.follow?_two {v : Value} {a b : Key} (path : m.follow? v [a, b] = some w) :
    ∃ r o, v = .object r ∧ m.property? r a = some (.object o) ∧ m.property? o b = some w := by
  cases v with
  | object r =>
    obtain ⟨x, first, rest⟩ := Option.bind_eq_some_iff.mp path
    cases x with
    | object o =>
      obtain ⟨_, second, ⟨⟩⟩ := Option.bind_eq_some_iff.mp rest
      exact ⟨r, o, rfl, first, second⟩
    | _ => cases rest
  | _ => cases path

theorem Machine.Standard.function (standard : m.Standard) (a : Key) (f : Native)
    (listed : ([a], f) ∈ liftFunctions) :
    ∃ r, m.property? Proto.global.ref a = some (.object r) ∧ m.native? (.object r) = some f := by
  obtain ⟨v, path, native⟩ := Option.bind_eq_some_iff.mp (standard.functions _ listed)
  obtain ⟨_, first, ⟨⟩⟩ := Option.bind_eq_some_iff.mp path
  obtain ⟨r, o, rfl, _⟩ := Machine.native?_eq_some.mp native
  exact ⟨r, first, native⟩

theorem Machine.Standard.method (standard : m.Standard) (a b : Key) (f : Native)
    (listed : ([a, b], f) ∈ liftFunctions) :
    ∃ o r, m.property? Proto.global.ref a = some (.object o) ∧
      m.property? o b = some (.object r) ∧ m.native? (.object r) = some f := by
  obtain ⟨v, path, native⟩ := Option.bind_eq_some_iff.mp (standard.functions _ listed)
  obtain ⟨_, o, ⟨⟩, first, second⟩ := Machine.follow?_two path
  obtain ⟨r, _, rfl, _⟩ := Machine.native?_eq_some.mp native
  exact ⟨o, r, first, second, native⟩

theorem gives_isCallable_native {r : Ref} {f : Native} (function : m.native? (.object r) = some f) :
    Gives m (isCallable (.object r)) true := by
  obtain ⟨_, o, ⟨⟩, there, native⟩ := Machine.native?_eq_some.mp function
  refine (gives_payload there).bind ?_
  rw [native]
  exact .pure m _

theorem gives_method {r s : Ref} {key : Key} (name : key.isName) {f : Native}
    (found : m.property? r key = some (.object s)) (function : m.native? (.object s) = some f) :
    Gives m (method? e (.object r) key) (some (.object s)) :=
  (gives_getProperty e name found).bind ((gives_isCallable_native function).bind (.pure m _))

end Patchbay.Script
