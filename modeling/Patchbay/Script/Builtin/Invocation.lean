import Patchbay.Script.Evaluate.Program
/-!
How built-in functions are called, and how they are listed on the objects that hold them.
-/
namespace Patchbay.Script

open Binary Text

structure Invocation where
  engine : Engine
  callee : Ref
  this : Value
  args : List Value
  /-- The target of `new`, when the function is called through it. -/
  target : Option Value := none

namespace Invocation

def arg (i : Invocation) (n : Nat) : Value := i.args.getD n .undefined

def apply (i : Invocation) (f this : Value) (args : List Value) : Run Value :=
  i.engine.call f this args

def proto (i : Invocation) (p : Proto) : Run Ref := do
  match i.target with
  | none => return p.ref
  | some t =>
    match ← getValue i.engine t (.named "prototype") with
    | .object r => return r
    | _ => return p.ref

def make (i : Invocation) (p : Proto) (payload : Payload) : Run Value := do
  return .object (← allocate { proto := some (← i.proto p), payload := payload })

def requireNew (i : Invocation) : Run Unit := do
  if i.target.isNone then throwType "constructor requires 'new'"

def function (i : Invocation) (n : Nat) : Run Value := do
  if ← isCallable (i.arg n) then return i.arg n else throwType "not a function"

end Invocation

/-- A built-in function under its name, with the number of arguments that it asks for. -/
structure Entry (α : Type) where
  name : String
  arity : Nat
  fn : α

def entriesOf {α : Type} (family : α → Native) (all : List (String × Nat × α)) : List (Entry Native) :=
  all.map fun (name, arity, f) => ⟨name, arity, family f⟩

def requireObject (v : Value) : Run Ref := do
  match v with
  | .object r => return r
  | _ => throwType "not an object"

def iteratorAnswer (v : Value) (done : Bool) : Run Value := do
  let r ← newObject .object
  create r (.named "value") v
  create r (.named "done") (.bool done)
  return .object r

end Patchbay.Script
