import Patchbay.Script.Evaluate.Variable
/-!
What objects have under private names. A class makes a symbol for each of its private names, which stands in
the scope of the class and is no key of any object; a proxy does not pass it on.
-/
namespace Patchbay.Script

open Text

def secretName (n : Name) : Name := .ofString "#" ++ n

def secretOf (scope : Nat) (n : Name) : Run Nat := do
  match ← ownName? scope (secretName n) with
  | some (.symbol id) => return id
  | _ => throwNew .syntaxFault ("undefined private field '" ++ shown (secretName n) ++ "'")

def hasSecret (r : Ref) (id : Nat) : Run Bool := return ((← object r).secrets.lookup id).isSome

def secret (v : Value) (scope : Nat) (n : Name) : Run (Ref × Nat × Slot) := do
  let id ← secretOf scope n
  match v with
  | .object r =>
    match (← object r).secrets.lookup id with
    | some p => return (r, id, p.slot)
    | none => throwType ("private class field '" ++ shown (secretName n) ++ "' does not exist")
  | _ => throwType "not an object"

def throwSecretReadOnly {α : Type} (n : Name) : Run α :=
  throwType ("'" ++ shown (secretName n) ++ "' is read-only")

def readSecret (e : Engine) (scope : Nat) (n : Name) (v : Value) : Run Value := do
  match (← secret v scope n).2.2 with
  | .data v _ => return v
  | .accessor getter _ => if getter == .undefined then throwSecretReadOnly n else e.call getter v []

def Secrets.set (all : Secrets) (id : Nat) (p : Property) : Secrets :=
  if all.any fun entry => entry.1 == id then
    all.map fun entry => if entry.1 == id then (id, p) else entry
  else all ++ [(id, p)]

def writeSecret (e : Engine) (scope : Nat) (n : Name) (v new : Value) : Run Unit := do
  let (r, id, slot) ← secret v scope n
  match slot with
  | .data _ true => modifyObject r fun o => { o with secrets := o.secrets.set id (.plain new) }
  | .data _ false => throwSecretReadOnly n
  | .accessor _ setter =>
    if setter == .undefined then throwSecretReadOnly n
    else
      let _ ← e.call setter v [new]

/-- Gives an object what a class has under a private name, unless it has that already. -/
def addSecret (r : Ref) (id : Nat) (p : Property) : Run Unit := do
  if ← hasSecret r id then
    throwType ("private class field '" ++ (← shownKey (.symbol id)) ++ "' already exists")
  modifyObject r fun o => { o with secrets := o.secrets.set id p }

/-- The private methods of a class with one more; a getter and a setter of one name are one member. -/
def Secrets.join (all : Secrets) (id : Nat) (kind : MemberKind) (f : Value) : Secrets :=
  let (getter, setter) := match all.lookup id with
    | some ⟨.accessor g s, _, _⟩ => (g, s)
    | _ => (.undefined, .undefined)
  all.set id (match kind with
    | .value => .fixed f
    | .getter => ⟨.accessor f setter, false, false⟩
    | .setter => ⟨.accessor getter f, false, false⟩)

end Patchbay.Script
