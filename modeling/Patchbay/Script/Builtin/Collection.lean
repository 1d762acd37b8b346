import Patchbay.Script.Builtin.List
/-!
Sets, maps and the iterators of all collections. Items that are deleted leave their place empty, so
walks over a collection keep their position.
-/
namespace Patchbay.Script

open Binary Text

def SetFn.methods : List (String × Nat × SetFn) :=
  [("add", 1, add), ("has", 1, has), ("delete", 1, delete), ("clear", 0, clear), ("forEach", 1, forEach),
    ("entries", 0, entries)]

def MapFn.methods : List (String × Nat × MapFn) :=
  [("set", 2, set), ("get", 1, get), ("has", 1, has), ("delete", 1, delete), ("clear", 0, clear),
    ("forEach", 1, forEach), ("values", 0, values), ("keys", 0, keys)]

def IteratorFn.methods : List (String × Nat × IteratorFn) := [("next", 0, next)]

/-- A value as a collection keeps it: zero has no sign. -/
def unsignedZero (v : Value) : Value :=
  match v with
  | .number d => if d.isZero then .number .zero else v
  | v => v

def thisSet (i : Invocation) : Run (Ref × Array (Option Value)) := do
  match i.this with
  | .object r =>
    match ← payload r with
    | .set items => return (r, items)
    | _ => throwType "Set object expected"
  | _ => throwType "Set object expected"

def addToSet (items : Array (Option Value)) (v : Value) : Array (Option Value) :=
  if items.any fun item => item.any v.sameZero then items else items.push (some (unsignedZero v))

def makeSet (i : Invocation) : Run Value := do
  i.requireNew
  let items ← if (i.arg 0).isNullish then pure [] else itemsOf i.engine (i.arg 0)
  i.make .set (.set (items.foldl addToSet #[]))

def SetFn.run (f : SetFn) (i : Invocation) : Run Value := do
  match f with
  | make => makeSet i
  | f =>
    let (r, items) ← thisSet i
    match f with
    | add =>
      setPayload r (.set (addToSet items (i.arg 0)))
      return i.this
    | has => return .bool (items.any fun item => item.any (i.arg 0).sameZero)
    | delete =>
      match items.findIdx? fun item => item.any (i.arg 0).sameZero with
      | some n =>
        setPayload r (.set (items.setIfInBounds n none))
        return .bool true
      | none => return .bool false
    | clear =>
      setPayload r (.set (items.map fun _ => none))
      return .undefined
    | size => return .ofNat (items.filterMap id).size
    | values => return .object (← newObject .setIterator (.walk (.set r) .values 0))
    | entries => return .object (← newObject .setIterator (.walk (.set r) .entries 0))
    | _ =>
      let f ← i.function 0
      for item in items.filterMap id do
        let _ ← i.apply f (i.arg 1) [item, item, i.this]
      return .undefined

def thisMap (i : Invocation) : Run (Ref × Array (Option (Value × Value))) := do
  match i.this with
  | .object r =>
    match ← payload r with
    | .map entries => return (r, entries)
    | _ => throwType "Map object expected"
  | _ => throwType "Map object expected"

def setInMap (entries : Array (Option (Value × Value))) (k v : Value) : Array (Option (Value × Value)) :=
  match entries.findIdx? fun entry => entry.any fun entry => k.sameZero entry.1 with
  | some n => entries.modify n (·.map fun entry => (entry.1, v))
  | none => entries.push (some (unsignedZero k, v))

def makeMap (i : Invocation) : Run Value := do
  i.requireNew
  let items ← if (i.arg 0).isNullish then pure [] else itemsOf i.engine (i.arg 0)
  let entries ← items.foldlM (fun entries item => do
    let pair ← requireObject item
    let k ← getProperty i.engine pair (.index 0)
    return setInMap entries k (← getProperty i.engine pair (.index 1))) #[]
  i.make .map (.map entries)

def MapFn.run (f : MapFn) (i : Invocation) : Run Value := do
  match f with
  | make => makeMap i
  | f =>
    let (r, all) ← thisMap i
    let has (entry : Option (Value × Value)) : Bool := entry.any fun entry => (i.arg 0).sameZero entry.1
    match f with
    | set =>
      setPayload r (.map (setInMap all (i.arg 0) (i.arg 1)))
      return i.this
    | get => return ((all.find? has).join.map Prod.snd).getD .undefined
    | .has => return .bool (all.any has)
    | delete =>
      match all.findIdx? has with
      | some n =>
        setPayload r (.map (all.setIfInBounds n none))
        return .bool true
      | none => return .bool false
    | clear =>
      setPayload r (.map (all.map fun _ => none))
      return .undefined
    | size => return .ofNat (all.filterMap id).size
    | keys => return .object (← newObject .mapIterator (.walk (.map r) .keys 0))
    | values => return .object (← newObject .mapIterator (.walk (.map r) .values 0))
    | entries => return .object (← newObject .mapIterator (.walk (.map r) .entries 0))
    | _ =>
      let f ← i.function 0
      for entry in all.filterMap id do
        let _ ← i.apply f (i.arg 1) [entry.2, entry.1, i.this]
      return .undefined

def project (projection : Projection) (k v : Value) : Run Value := do
  match projection with
  | .keys => return k
  | .values => return v
  | .entries => return .object (← newList [k, v])

def nextPresent {α : Type} (items : Array (Option α)) (start : Nat) : Option (Nat × α) :=
  if h : start < items.size then
    match items[start] with
    | some a => some (start, a)
    | none => nextPresent items (start + 1)
  else none
termination_by items.size - start

/-- How many items a walk over a list goes through. A typed array does not ask for its length. -/
def walkLength (e : Engine) (r : Ref) : Run Nat := do
  match ← payload r with
  | .typed _ _ _ length => return length
  | _ => lengthOf e r

def nextItem (e : Engine) (w : Walk) (projection : Projection) (n : Nat) : Run (Option (Value × Nat)) := do
  match w with
  | .list target =>
    match target with
    | .object r =>
      if n < (← walkLength e r) then
        let v ← match projection with
          | .keys => pure .undefined
          | _ => getProperty e r (.index n)
        return some (← project projection (.ofNat n) v, n + 1)
      else return none
    | _ => return none
  | .set r =>
    match ← payload r with
    | .set items =>
      match nextPresent items n with
      | some (n, v) => return some (← project projection v v, n + 1)
      | none => return none
    | _ => return none
  | .map r =>
    match ← payload r with
    | .map entries =>
      match nextPresent entries n with
      | some (n, k, v) => return some (← project projection k v, n + 1)
      | none => return none
    | _ => return none
  | .string s =>
    match (s.extract n (n + 2)).codePoints with
    | [] => return none
    | point :: _ =>
      let part := CodeUnits.ofCodePoints [point]
      return some (.string part, n + part.length)
  | .known items =>
    match items[n]? with
    | some v => return some (v, n + 1)
    | none => return none

def walkEnd : Nat := 4294967296

def IteratorFn.run (f : IteratorFn) (i : Invocation) : Run Value := do
  match f with
  | itself => return i.this
  | next =>
    match i.this with
    | .object r =>
      match ← payload r with
      | .walk w projection n =>
        match ← nextItem i.engine w projection n with
        | some (v, n) =>
          setPayload r (.walk w projection n)
          iteratorAnswer v false
        | none =>
          setPayload r (.walk (.known []) projection walkEnd)
          iteratorAnswer .undefined true
      | _ => throwType "not an iterator"
    | _ => throwType "not an iterator"

end Patchbay.Script
