import Patchbay.Script.Operator
/-!
Variables. A name is looked for in the scopes around it, then among the lexical names of all scripts
and last on the global object. Names that no script can write hold what a call knows of itself.
-/
namespace Patchbay.Script

open Text

def thisName : Name := .ofString "this"

def targetName : Name := .ofString "new.target"

def calleeName : Name := .ofString "%callee"

def homeName : Name := .ofString "%home"

def globalValue : Value := .object Proto.global.ref

def throwUninitialized {α : Type} (n : Name) : Run α :=
  throwReference (shown n ++ " is not initialized")

def throwUndefined {α : Type} (n : Name) : Run α :=
  throwReference ("'" ++ shown n ++ "' is not defined")

def readName? (e : Engine) (scope : Nat) (n : Name) : Run (Option Value) := do
  match ← lookupScope scope n with
  | some (_, b) =>
    match b.value with
    | some v => return some v
    | none => throwUninitialized n
  | none =>
    let k := Key.ofUnits n
    if ← hasProperty e Proto.global.ref k then
      return some (← getProperty e Proto.global.ref k)
    else return none

def readName (e : Engine) (scope : Nat) (n : Name) : Run Value := do
  match ← readName? e scope n with
  | some v => return v
  | none => throwUndefined n

def writeName (e : Engine) (c : Context) (n : Name) (v : Value) : Run Unit := do
  match ← lookupScope c.scope n with
  | some (i, b) =>
    match b.value, b.kind with
    | none, _ => throwUninitialized n
    | some _, .variable => bindIn i n { b with value := some v }
    | some _, .constant => throwType ("'" ++ shown n ++ "' is read-only")
    | some _, .itself => if c.strict then throwType ("'" ++ shown n ++ "' is read-only")
  | none =>
    let k := Key.ofUnits n
    if c.strict && !(← hasProperty e Proto.global.ref k) then throwUndefined n
    else checkAssigned c.strict k (← putProperty e Proto.global.ref k v)

/-- What the code under way has under a name of its own, if it is in a function. -/
def ownName? (scope : Nat) (n : Name) : Run (Option Value) := do
  match ← lookupScope scope n with
  | some (_, b) =>
    match b.value with
    | some v => return some v
    | none => throwUninitialized n
  | none => return none

def readThis (scope : Nat) : Run Value := return (← ownName? scope thisName).getD globalValue

def initializeName (scope : Nat) (kind : DeclarationKind) (n : Name) (v : Value) : Run Unit :=
  bindIn scope n ⟨some v, if kind == .const then .constant else .variable⟩

end Patchbay.Script
