import Patchbay.Script.Element
import Patchbay.Script.Machine
/-!
Reading properties. A property is looked for on the object itself and then along its prototypes; a
getter is called, and a proxy is asked through its handler.
-/
namespace Patchbay.Script

open Text

def chainLimit : Nat := 1000000

def elementAt (buffer : Array UInt8) (e : Element) (index : Nat) : Value :=
  e.value ((List.range e.size).map fun i => (buffer[index + i]?).getD 0)

def textProperty? (s : CodeUnits) (k : Key) : Option Property :=
  match k with
  | .index i =>
    if i < s.length then some ⟨.data (.string (s.extract i (i + 1))) false, true, false⟩ else none
  | k => if k == .named "length" then some (.fixed (.ofNat s.length)) else none

def Machine.ownProperty? (m : Machine) (r : Ref) (k : Key) : Option Property :=
  let o := (m.heap[r]?).getD default
  match o.payload with
  | .list items length resizable =>
    match k with
    | .index i =>
      match items[i]? with
      | some p => p
      | none => o.lookup? k
    | k =>
      if k == .named "length" then some ⟨.data (.ofNat length) resizable, false, false⟩ else o.lookup? k
  | .wrapper (.string s) => (textProperty? s k).or (o.lookup? k)
  | .typed e buffer offset length =>
    match k with
    | .index i =>
      if i < length then
        match ((m.heap[buffer]?).getD default).payload with
        | .buffer bytes => some ⟨.data (elementAt bytes e (offset + i * e.size)) true, true, true⟩
        | _ => none
      else none
    | k => o.lookup? k
  | _ => o.lookup? k

def trap? (get : Ref → Key → Run Value) (handler : Ref) (name : String) : Run (Option Value) := do
  let f ← get handler (.named name)
  return if f.isNullish then none else some f

/-- Whether a property can have this value for the one who reads it through a proxy. What can never change
may not seem to. -/
def Property.reads (p : Property) (v : Value) : Bool :=
  p.configurable ||
    match p.slot with
    | .data held writable => writable || held.same v
    | .accessor getter _ => getter != .undefined || v == .undefined

def Property.takes (p : Property) (v : Value) : Bool :=
  p.configurable ||
    match p.slot with
    | .data held writable => writable || held.same v
    | .accessor _ setter => setter != .undefined

/-- The value of a property of an object, for the value through which it is read. -/
def getFrom (e : Engine) : Nat → Ref → Key → Value → Run Value
  | 0, _, _, _ => throwNew .internal "stack overflow"
  | fuel + 1, r, k, receiver => do
    match (← get).ownProperty? r k with
    | some ⟨.data v _, _, _⟩ => return v
    | some ⟨.accessor getter _, _, _⟩ =>
      if getter == .undefined then return .undefined else e.call getter receiver []
    | none =>
      let o ← object r
      match o.payload with
      | .proxy target handler _ =>
        match ← trap? (fun r k => getFrom e fuel r k (.object r)) handler "get" with
        | some f =>
          let v ← e.call f (.object handler) [.object target, k.toValue, receiver]
          if (← e.own target k).all (·.reads v) then return v
          else throwType "proxy: inconsistent get"
        | none => getFrom e fuel target k receiver
      | _ =>
        match o.proto with
        | some p => getFrom e fuel p k receiver
        | none => return .undefined

def getProperty (e : Engine) (r : Ref) (k : Key) : Run Value :=
  getFrom e chainLimit r k (.object r)

def getNamed (e : Engine) (r : Ref) (name : String) : Run Value := getProperty e r (.named name)

def protoOf : Value → Option Proto
  | .string _ => some .string
  | .number _ => some .number
  | .bool _ => some .boolean
  | .symbol _ => some .symbol
  | .bigint _ => some .bigint
  | _ => none

def getValue (e : Engine) (v : Value) (k : Key) : Run Value := do
  match v with
  | .object r => getProperty e r k
  | .undefined => throwType ("cannot read property '" ++ (← shownKey k) ++ "' of undefined")
  | .null => throwType ("cannot read property '" ++ (← shownKey k) ++ "' of null")
  | .string s =>
    match textProperty? s k with
    | some ⟨.data v _, _, _⟩ => return v
    | _ => getFrom e chainLimit Proto.string.ref k v
  | v =>
    match protoOf v with
    | some p => getFrom e chainLimit p.ref k v
    | none => return .undefined

def method? (e : Engine) (v : Value) (k : Key) : Run (Option Value) := do
  let f ← getValue e v k
  if f.isNullish then return none
  else if ← isCallable f then return some f
  else throwType "not a function"

def invoke (e : Engine) (v : Value) (k : Key) (args : List Value) : Run Value := do
  e.call (← getValue e v k) v args

def hasFrom (e : Engine) : Nat → Ref → Key → Run Bool
  | 0, _, _ => throwNew .internal "stack overflow"
  | fuel + 1, r, k => do
    if ((← get).ownProperty? r k).isSome then return true
    let o ← object r
    match o.payload with
    | .proxy target handler _ =>
      match ← trap? (getProperty e) handler "has" with
      | some f =>
        if (← e.call f (.object handler) [.object target, k.toValue]).truthy then return true
        let held ← e.own target k
        let loose := (← object target).extensible
        if held.all fun p => p.configurable && loose then return false
        else throwType "proxy: inconsistent has"
      | none => hasFrom e fuel target k
    | _ =>
      match o.proto with
      | some p => hasFrom e fuel p k
      | none => return false

def hasProperty (e : Engine) (r : Ref) (k : Key) : Run Bool := hasFrom e chainLimit r k

def indexKeys : Payload → List Key
  | .list items _ _ =>
    (List.range items.size).filterMap fun i =>
      match items[i]? with
      | some (some _) => some (.index i)
      | _ => none
  | .wrapper (.string s) => (List.range s.length).map .index
  | .typed _ _ _ length => (List.range length).map .index
  | _ => []

/-- The keys of an object: indices in order, then names and then symbols as they were made. -/
def ownKeysOf (m : Machine) (r : Ref) : List Key :=
  let o := (m.heap[r]?).getD default
  let made := (o.props.map Prod.fst).toList
  let indices := (made.filterMap fun k =>
    match k with
    | .index n => some n
    | _ => none).mergeSort
  let names := made.filter fun k =>
    match k with
    | .text _ => true
    | _ => false
  let length := match o.payload with
    | .list .. | .wrapper (.string _) => [Key.named "length"]
    | _ => []
  indexKeys o.payload ++ indices.map .index ++ length ++ names ++ made.filter Key.isSymbol

end Patchbay.Script
