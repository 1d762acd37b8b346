import Patchbay.Script.Evaluate.Expression
/-!
Running statements. The value of a script is that of the last expression statement at its top that
was reached; statements that choose or repeat start it anew.
-/
namespace Patchbay.Script

open Text

def clearCompletion (c : Context) : Run Unit := do
  if c.top then modify fun m => { m with completion := .undefined }

def executeAll (e : Engine) (c : Context) : List Stmt → Run Flow
  | [] => return .normal
  | s :: rest => do
    match ← e.execute c s with
    | .normal => executeAll e c rest
    | flow => return flow

def executeBlock (e : Engine) (c : Context) (body : List Stmt) : Run Flow := do
  let scope ← enterBlock c.scope body
  executeAll e { c with scope := scope } body

/-- What a loop does after a run of its body: it goes on, or it ends with a flow. -/
def afterBody (labels : List Name) : Flow → Option Flow
  | .normal => none
  | .continues none => none
  | .continues (some l) => if labels.contains l then none else some (.continues (some l))
  | .breaks none => some .normal
  | .breaks (some l) => if labels.contains l then some .normal else some (.breaks (some l))
  | .returns v => some (.returns v)

def testHolds (e : Engine) (c : Context) : Option Expr → Run Bool
  | none => return true
  | some x => return (← e.evaluate c x).truthy

def executeWhile (e : Engine) (c : Context) (labels : List Name) (test : Expr) (body : Stmt) :
    Run Flow :=
  repeatRun (fun (_ : Unit) => do
    if (← e.evaluate c test).truthy then
      match afterBody labels (← e.execute c body) with
      | none => return .inl ()
      | some flow => return .inr flow
    else return .inr .normal) loopLimit ()

def executeDo (e : Engine) (c : Context) (labels : List Name) (body : Stmt) (test : Expr) : Run Flow :=
  repeatRun (fun (_ : Unit) => do
    match afterBody labels (← e.execute c body) with
    | some flow => return .inr flow
    | none => if (← e.evaluate c test).truthy then return .inl () else return .inr .normal)
    loopLimit ()

def copyScope (scope : Nat) : Run Nat := do
  let s := ((← get).scopes[scope]?).getD default
  modifyGet fun m => (m.scopes.size, { m with scopes := m.scopes.push s })

/-- A loop with a first step, a test and an update. Names that it declares are new in each run. -/
def executeFor (e : Engine) (c : Context) (labels : List Name) (init : Option Stmt)
    (test update : Option Expr) (body : Stmt) : Run Flow := do
  let names := lexicalNames init.toList
  let first ← if names.isEmpty then pure c.scope else newScope c.scope names
  match init with
  | some (.expr x) =>
    let _ ← e.evaluate { c with scope := first } x
  | some s =>
    let _ ← e.execute { c with scope := first, top := false } s
  | none => pure ()
  repeatRun (fun scope => do
    let inner : Context := { c with scope := scope }
    if ← testHolds e inner test then
      match afterBody labels (← e.execute inner body) with
      | some flow => return .inr flow
      | none =>
        let scope ← if names.isEmpty then pure scope else copyScope scope
        match update with
        | some x =>
          let _ ← e.evaluate { c with scope := scope } x
        | none => pure ()
        return .inl scope
    else return .inr .normal) loopLimit first

def executeItem (e : Engine) (c : Context) (labels : List Name) (kind : Option DeclarationKind)
    (target : Pattern) (body : Stmt) (v : Value) : Run (Option Flow) := do
  let scope ← match kind with
    | some .lexical => newScope c.scope (target.names.map fun n => (n, ⟨none, .variable⟩))
    | some .const => newScope c.scope (target.names.map fun n => (n, ⟨none, .constant⟩))
    | _ => pure c.scope
  let inner : Context := { c with scope := scope }
  bindPattern e inner kind target v
  return afterBody labels (← e.execute inner body)

def loopKeys (e : Engine) : Nat → Ref → List Key → Run (List Key)
  | 0, _, _ => return []
  | fuel + 1, r, seen => do
    let keys ← ownKeys e r
    let listed ← listedKeys e r
    let own := listed.filter fun k => !seen.contains k
    match ← prototypeOf e r with
    | none => return own
    | some p => return own ++ (← loopKeys e fuel p (keys ++ seen))

def executeForIn (e : Engine) (c : Context) (labels : List Name) (kind : Option DeclarationKind)
    (target : Pattern) (x : Expr) (body : Stmt) : Run Flow := do
  let v ← e.evaluate c x
  if v.isNullish then return .normal
  let r ← toObject v
  let keys ← loopKeys e chainLimit r []
  repeatRun (fun (keys : List Key) => do
    match keys with
    | [] => return .inr .normal
    | k :: rest =>
      if ← hasProperty e r k then
        match ← executeItem e c labels kind target body k.toValue with
        | some flow => return .inr flow
        | none => return .inl rest
      else return .inl rest) (keys.length + 1) keys

/-- Runs a computation, and another one if it throws. -/
def orElse {α : Type} (body : Run α) (handler : Value → Run α) : Run α := fun m =>
  match body m with
  | .ok a m => .ok a m
  | .error v m => handler v m

def executeForOf (e : Engine) (c : Context) (labels : List Name) (kind : Option DeclarationKind)
    (target : Pattern) (x : Expr) (body : Stmt) : Run Flow := do
  let it ← iteratorOf e (← e.evaluate c x)
  repeatRun (fun (_ : Unit) => do
    match ← it.step? e with
    | none => return .inr .normal
    | some v =>
      let flow ← orElse (executeItem e c labels kind target body v) fun thrown => do
        orElse (it.close e) fun _ => pure ()
        throw thrown
      match flow with
      | none => return .inl ()
      | some flow =>
        it.close e
        return .inr flow) loopLimit ()

def chooseCase (e : Engine) (c : Context) (v : Value) : List Stmt → Nat → Run (Option Nat)
  | [], _ => return none
  | .branchCase (some x) _ :: rest, i => do
    if v.strictEq (← e.evaluate c x) then return some i else chooseCase e c v rest (i + 1)
  | _ :: rest, i => chooseCase e c v rest (i + 1)

def isDefaultCase : Stmt → Bool
  | .branchCase none _ => true
  | _ => false

def caseBody : Stmt → List Stmt
  | .branchCase _ body => body
  | _ => []

def executeSwitch (e : Engine) (c : Context) (labels : List Name) (x : Expr) (cases : List Stmt) :
    Run Flow := do
  let v ← e.evaluate c x
  let bodies := cases.flatMap caseBody
  let scope ← enterBlock c.scope bodies
  let inner : Context := { c with scope := scope }
  let start := (← chooseCase e inner v cases 0).or (cases.findIdx? isDefaultCase)
  match start with
  | none => return .normal
  | some i =>
    match ← executeAll e inner ((cases.drop i).flatMap caseBody) with
    | .breaks none => return .normal
    | .breaks (some l) => return if labels.contains l then .normal else .breaks (some l)
    | flow => return flow

/-- A statement that is tried, what handles a value thrown from it, and what is done in any case. -/
def executeTry (e : Engine) (c : Context) (body : List Stmt) (param : Option Pattern)
    (handler finalizer : Option Stmt) : Run Flow := do
  let guarded : Run Flow :=
    match handler with
    | none => executeBlock e c body
    | some h => orElse (executeBlock e c body) fun thrown => do
      clearCompletion c
      let names := (param.map Pattern.names).getD []
      let scope ← if names.isEmpty then pure c.scope
        else newScope c.scope (names.map fun n => (n, ⟨none, .variable⟩))
      let inner : Context := { c with scope := scope }
      match param with
      | some p => bindPattern e inner (some .lexical) p thrown
      | none => pure ()
      e.execute inner h
  match finalizer with
  | none => guarded
  | some f =>
    let outcome : Flow ⊕ Value ← orElse (Sum.inl <$> guarded) fun thrown => return .inr thrown
    let kept := (← get).completion
    match ← e.execute c f with
    | .normal =>
      modify fun m => { m with completion := kept }
      match outcome with
      | .inl flow => return flow
      | .inr thrown => throw thrown
    | other => return other

def executeLabelled (e : Engine) (c : Context) (labels : List Name) : Stmt → Run Flow
  | .labelled l s => executeLabelled e c (l :: labels) s
  | .whileLoop test body => do
    clearCompletion c
    executeWhile e c labels test body
  | .doLoop body test => do
    clearCompletion c
    executeDo e c labels body test
  | .forLoop init test update body => do
    clearCompletion c
    executeFor e c labels init test update body
  | .forIn kind target x body => do
    clearCompletion c
    executeForIn e c labels kind target x body
  | .forOf kind target x body => do
    clearCompletion c
    executeForOf e c labels kind target x body
  | .switch x cases => do
    clearCompletion c
    executeSwitch e c labels x cases
  | s => do
    match ← e.execute c s with
    | .breaks (some l) => return if labels.contains l then .normal else .breaks (some l)
    | flow => return flow

def execute (e : Engine) (c : Context) (s : Stmt) : Run Flow := do
  match s with
  | .empty => return .normal
  | .expr x =>
    let v ← e.evaluate c x
    if c.top then modify fun m => { m with completion := v }
    return .normal
  | .declare kind target value =>
    match kind, value with
    | .var, none => return .normal
    | kind, value =>
      let v ← match value with
        | some x => e.evaluate c x
        | none => pure .undefined
      bindPattern e c (some kind) target v
      return .normal
  | .group body => executeAll e c body
  | .function f outward =>
    if outward then
      let v ← readName e c.scope f.signature.name
      let outer := (((← get).scopes[c.scope]?).bind Scope.outer).getD 0
      writeName e { c with scope := outer } f.signature.name v
    return .normal
  | .classDecl k =>
    let v ← evaluateClass e c k
    initializeName c.scope .lexical k.name v
    return .normal
  | .returns x =>
    match x with
    | some x => return .returns (← e.evaluate c x)
    | none => return .returns .undefined
  | .throws x => throw (← e.evaluate c x)
  | .branch test yes no =>
    let v ← e.evaluate c test
    clearCompletion c
    if v.truthy then e.execute c yes
    else
      match no with
      | some s => e.execute c s
      | none => return .normal
  | .block body => executeBlock e c body
  | .breaks label => return .breaks label
  | .continues label => return .continues label
  | .branchCase _ body => executeAll e c body
  | .attempt body param handler finalizer =>
    clearCompletion c
    executeTry e c body param handler finalizer
  | s => executeLabelled e c [] s

end Patchbay.Script
