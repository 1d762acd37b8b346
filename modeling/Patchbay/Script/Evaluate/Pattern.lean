import Patchbay.Script.Evaluate.Iterate
import Patchbay.Script.Evaluate.Secret
/-!
Functions as values, and patterns that take values apart.
-/
namespace Patchbay.Script

open Text

def lexicalNames : List Stmt → List (Name × Binding)
  | [] => []
  | s :: rest =>
    (match s with
      | .declare .lexical p _ => p.names.map fun n => (n, ⟨none, .variable⟩)
      | .declare .const p _ => p.names.map fun n => (n, ⟨none, .constant⟩)
      | .group body => body.flatMap fun s =>
          match s with
          | .declare .lexical p _ => p.names.map fun n => (n, ⟨none, .variable⟩)
          | .declare .const p _ => p.names.map fun n => (n, ⟨none, .constant⟩)
          | _ => []
      | .classDecl c => [(c.name, ⟨none, .variable⟩)]
      | _ => []) ++ lexicalNames rest

def declaredFunction? : Stmt → Option Function
  | .function f _ => some f
  | .labelled _ s => declaredFunction? s
  | _ => none

def declaredFunctions (body : List Stmt) : List Function := body.filterMap declaredFunction?

def Function.isMaker (f : Function) : Bool :=
  match f.signature.kind with
  | .normal => !f.signature.isAsync && !f.signature.isGenerator
  | .baseConstructor | .derivedConstructor => true
  | .arrow | .method | .getter | .setter | .initializer => false

def makeFunction (scope : Nat) (f : Function) (home : Option Ref) : Run Ref := do
  let r ← newObject .function (.closure { tree := f, scope := scope, home := home })
  modifyObject r fun o =>
    (o.insert (.named "length") (.constant (.ofNat f.signature.length))).insert (.named "name")
      (.constant (.string f.signature.name))
  if f.signature.kind == .normal && (f.isMaker || f.signature.isGenerator) then
    let p ← newObject (if f.signature.isGenerator then .generator else .object)
    if f.isMaker then modifyObject p fun o => o.insert (.named "constructor") (.hidden (.object r))
    modifyObject r fun o => o.insert (.named "prototype") ⟨.data (.object p) true, false, false⟩
  return r

def isMakerFrom : Nat → Ref → Run Bool
  | 0, _ => return false
  | fuel + 1, r => do
    match ← payload r with
    | .closure cl => return cl.tree.isMaker
    | .native native => return native.isMaker
    | .bound (.object target) _ _ => isMakerFrom fuel target
    | .proxy target _ _ => isMakerFrom fuel target
    | _ => return false

def isMaker (v : Value) : Run Bool := do
  match v with
  | .object r => isMakerFrom chainLimit r
  | _ => return false

/-- The function value of an expression; one that names itself gets a scope for its name. -/
def functionValue (scope : Nat) (f : Function) : Run Value := do
  if f.signature.namesItself then
    let inner ← newScope scope [(f.signature.name, ⟨none, .itself⟩)]
    let r ← makeFunction inner f none
    bindIn inner f.signature.name ⟨some (.object r), .itself⟩
    return .object r
  else return .object (← makeFunction scope f none)

def hoist (scope : Nat) (body : List Stmt) : Run Unit :=
  (declaredFunctions body).forM fun f => do
    let r ← makeFunction scope f none
    bindIn scope f.signature.name ⟨some (.object r), .variable⟩

def enterBlock (outer : Nat) (body : List Stmt) : Run Nat := do
  let names := lexicalNames body
  if names.isEmpty && (declaredFunctions body).isEmpty then return outer
  else
    let scope ← newScope outer names
    hoist scope body
    return scope

def writeTarget (e : Engine) (c : Context) (target : Expr) (v : Value) : Run Unit := do
  match target with
  | .name n place =>
    reach place
    writeName e c n v
  | .member o k place =>
    let base ← e.evaluate c o
    reach place
    putValue e c.strict base (.ofUnits k) v
  | .element o k place =>
    let base ← e.evaluate c o
    let key ← e.evaluate c k
    reach place
    putValue e c.strict base (← toKey e key) v
  | .privateMember o n place =>
    let base ← e.evaluate c o
    reach place
    writeSecret e c.scope n base v
  | .superMember k place =>
    let this ← readThis c.scope
    let key ← e.evaluate c k
    reach place
    putValue e c.strict this (← toKey e key) v
  | _ => throwNew .syntaxFault "invalid assignment left-hand side"

/-- Gives a leaf of a pattern its value: a declaration of a block fills its own names. -/
def bindLeaf (e : Engine) (c : Context) (kind : Option DeclarationKind) (target : Expr) (v : Value) :
    Run Unit :=
  match kind, target with
  | some .lexical, .name n _ => initializeName c.scope .lexical n v
  | some .const, .name n _ => initializeName c.scope .const n v
  | _, target => writeTarget e c target v

mutual

def bindPattern (e : Engine) (c : Context) (kind : Option DeclarationKind) :
    Pattern → Value → Run Unit
  | .leaf target, v => bindLeaf e c kind target v
  | .orElse p d, v => do
    if v == .undefined then bindPattern e c kind p (← e.evaluate c d) else bindPattern e c kind p v
  | .hole, _ => pure ()
  | .rest p, v => bindPattern e c kind p v
  | .field _ p, v => bindPattern e c kind p v
  | .list items, v => do bindItems e c kind items (← itemsOf e v)
  | .object fields, v => do
    if v.isNullish then throwType "cannot convert to object"
    bindFields e c kind fields v []

def bindItems (e : Engine) (c : Context) (kind : Option DeclarationKind) :
    List Pattern → List Value → Run Unit
  | [], _ => pure ()
  | .rest p :: _, vs => do bindPattern e c kind p (.object (← newList vs))
  | p :: rest, vs => do
    bindPattern e c kind p (vs.headD .undefined)
    bindItems e c kind rest (vs.drop 1)

/-- Gives the fields of a pattern the properties of a value; `taken` are the keys so far. -/
def bindFields (e : Engine) (c : Context) (kind : Option DeclarationKind) :
    List Pattern → Value → List Key → Run Unit
  | [], _, _ => pure ()
  | .field key p :: rest, v, taken => do
    let k ← toKey e (← e.evaluate c key)
    bindPattern e c kind p (← getValue e v k)
    bindFields e c kind rest v (k :: taken)
  | .rest p :: rest, v, taken => do
    let copy ← newObject .object
    let source ← toObject v
    for k in (← listedKeys e source) do
      if !taken.contains k then create copy k (← getProperty e source k)
    bindPattern e c kind p (.object copy)
    bindFields e c kind rest v taken
  | _ :: rest, v, taken => bindFields e c kind rest v taken

end

end Patchbay.Script
