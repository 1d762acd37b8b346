import Patchbay.Script.Builtin
/-!
Calling functions and making objects with them.
-/
namespace Patchbay.Script

open Text

/-- The name that tracebacks show for a function: its own name, if that is a text. -/
def frameName (f : Ref) : Run Name := do
  match (← object f).lookup? (.named "name") with
  | some ⟨.data (.string s) _, _, _⟩ => return s
  | _ => return default

/-- What `this` is inside a function: outside strict code it is always an object. -/
def receiver (strict : Bool) (this : Value) : Run Value := do
  if strict then return this
  else
    match this with
    | .undefined | .null => return globalValue
    | v => return .object (← toObject v)

def argumentsObject (e : Engine) (args : List Value) : Run Value := do
  let r ← newObject .object .arguments
  for (v, n) in args.zipIdx do
    create r (.index n) v
  let values ← getNamed e Proto.list.ref "values"
  modifyObject r fun o =>
    (o.insert (.named "length") (.hidden (.ofNat args.length))).insert (.symbol symbolIterator)
      (.hidden values)
  return .object r

def yieldsName : Name := .ofString "%yields"

/-- The names that a call has before its parameters are bound. Arrow functions know those of the code
around them. -/
def callNames (e : Engine) (f : Ref) (cl : Closure) (this : Option Value) (target : Value)
    (args : List Value) : Run (List (Name × Binding)) := do
  let s := cl.tree.signature
  let yields ← if s.isGenerator then do
      pure [(yieldsName, ⟨some (.object (← newList [])), .constant⟩)]
    else pure []
  if s.kind == .arrow then return yields
  let arguments ← if s.usesArguments then do
      pure [(CodeUnits.ofString "arguments", ⟨some (← argumentsObject e args), .variable⟩)]
    else pure []
  let home := cl.home.map fun h => (homeName, ⟨some (.object h), .constant⟩)
  return yields ++ [(thisName, ⟨this, .constant⟩), (targetName, ⟨some target, .constant⟩),
    (calleeName, ⟨some (.object f), .constant⟩)] ++ home.toList ++ arguments

/-- The scope of the body of a function. Functions that are written among the parameters do not see
the variables of the body, which start out as the parameters of their names. -/
def bodyScope (scope : Nat) (f : Function) : Run Nat := do
  if anyAsks f.params then
    let known := ((← get).scopes[scope]?.map Scope.names).getD []
    newScope scope (f.signature.vars.map fun n =>
      (n, ⟨some (((known.lookup n).bind Binding.value).getD .undefined), .variable⟩))
  else return scope

/-- Runs the body of a function in a scope of its own; gives the scope and how the body ended. -/
def runBody (e : Engine) (f : Ref) (cl : Closure) (this : Option Value) (target : Value)
    (args : List Value) : Run (Nat × Flow) := do
  let s := cl.tree.signature
  let own ← callNames e f cl this target args
  let params := (namesOfAll cl.tree.params).map fun n => (n, (⟨none, .variable⟩ : Binding))
  let taken := (own ++ params).map Prod.fst
  let vars := (s.vars.filter fun n => !taken.contains n).map fun n =>
    (n, (⟨some .undefined, .variable⟩ : Binding))
  let scope ← newScope cl.scope (params ++ own ++ if anyAsks cl.tree.params then [] else vars)
  bindItems e ⟨scope, s.strict, false⟩ (some .lexical) cl.tree.params args
  let scope ← bodyScope scope cl.tree
  (lexicalNames cl.tree.body).forM fun (n, b) => bindIn scope n b
  hoist scope cl.tree.body
  return (scope, ← executeAll e ⟨scope, s.strict, false⟩ cl.tree.body)

def Flow.value : Flow → Value
  | .returns v => v
  | _ => .undefined

def generatorValue (f : Ref) (scope : Nat) : Run Value := do
  let items ← match ← lookupScope scope yieldsName with
    | some (_, ⟨some (.object r), _⟩) =>
      match ← payload r with
      | .list items _ _ =>
        pure (items.toList.filterMap fun item =>
          match item with
          | some ⟨.data v _, _, _⟩ => some v
          | _ => none)
      | _ => pure []
    | _ => pure []
  let proto := match (← object f).lookup? (.named "prototype") with
    | some ⟨.data (.object p) _, _, _⟩ => p
    | _ => Proto.generator.ref
  return .object (← allocate { proto := some proto, payload := .walk (.known items) .values 0 })

def callClosure (e : Engine) (f : Ref) (cl : Closure) (this : Value) (args : List Value) :
    Run Value := do
  let s := cl.tree.signature
  if s.kind == .baseConstructor || s.kind == .derivedConstructor then
    throwType "class constructors must be invoked with 'new'"
  withFrame ⟨← frameName f, false, ⟨1, 0⟩⟩ do
    let this ← if s.kind == .arrow then pure .undefined else receiver s.strict this
    if s.isGenerator then
      let (scope, _) ← runBody e f cl (some this) .undefined args
      generatorValue f scope
    else if s.isAsync then
      orElse (do let _ ← runBody e f cl (some this) .undefined args) fun _ => pure ()
      newPromise
    else return (← runBody e f cl (some this) .undefined args).2.value

def callNative (e : Engine) (f : Ref) (native : Native) (this : Value) (args : List Value)
    (target : Option Value) : Run Value := do
  let i : Invocation := ⟨e, f, this, args, target⟩
  match native with
  | .host h => h.run i
  | native => withFrame ⟨← frameName f, true, ⟨1, 0⟩⟩ (native.run i)

def callValue (e : Engine) (f this : Value) (args : List Value) : Run Value := do
  match f with
  | .object r =>
    match ← payload r with
    | .closure cl => callClosure e r cl this args
    | .native native => callNative e r native this args none
    | .bound target this first => e.call target this (first ++ args)
    | .proxy target handler true =>
      match ← trap? (getProperty e) handler "apply" with
      | some f => e.call f (.object handler) [.object target, this, .object (← newList args)]
      | none => e.call (.object target) this args
    | _ => throwType "not a function"
  | _ => throwType "not a function"

def protoOfTarget (e : Engine) (target : Value) : Run Ref := do
  match ← getValue e target (.named "prototype") with
  | .object p => return p
  | _ => return Proto.object.ref

/-- What the maker of a derived class made: the object it returned, or `this`. -/
def derivedResult (scope : Nat) (flow : Flow) : Run Value := do
  match flow.value with
  | .object r => return .object r
  | .undefined => readThis scope
  | _ => throwType "derived class constructor must return an object or undefined"

def constructClosure (e : Engine) (f : Ref) (cl : Closure) (args : List Value) (target : Value) :
    Run Value := do
  withFrame ⟨← frameName f, false, ⟨1, 0⟩⟩ do
    if cl.tree.signature.kind == .derivedConstructor then
      if cl.implicit then
        let parent := ((← prototypeOf e f).map Value.object).getD .null
        let this ← e.construct parent args target
        fillFields e f this
        return this
      else
        let (scope, flow) ← runBody e f cl none target args
        derivedResult scope flow
    else
      let this : Value := .object (← allocate { proto := some (← protoOfTarget e target) })
      fillFields e f this
      let (_, flow) ← runBody e f cl (some this) target args
      match flow.value with
      | .object r => return .object r
      | _ => return this

/-- Makes an object with a function; the target is the function that `new` was applied to. -/
def constructValue (e : Engine) (f : Value) (args : List Value) (target : Value) : Run Value := do
  match f with
  | .object r =>
    if !(← isMaker f) then throwType "not a constructor"
    match ← payload r with
    | .closure cl => constructClosure e r cl args target
    | .native native => callNative e r native .undefined args (some target)
    | .bound inner _ first =>
      e.construct inner (first ++ args) (if target == f then inner else target)
    | .proxy inner handler _ =>
      match ← trap? (getProperty e) handler "construct" with
      | some trap =>
        let v ← e.call trap (.object handler) [.object inner, .object (← newList args), target]
        if v.isObject then return v else throwType "not an object"
      | none => e.construct (.object inner) args target
    | _ => throwType "not a function"
  | _ => throwType "not a function"

end Patchbay.Script
