import Patchbay.Script.Convert
/-!
What objects answer about themselves: their prototypes, the properties that are their own, their keys,
and whether there may be more of them. For a proxy its handler answers, or else its target. The answer of a
handler may not gainsay what can never change of the target.
-/
namespace Patchbay.Script

/-- What a definition asks of a property; what it leaves out stays as it is. -/
structure Descriptor where
  value : Option Value := none
  getter : Option Value := none
  setter : Option Value := none
  writable : Option Bool := none
  enumerable : Option Bool := none
  configurable : Option Bool := none
  deriving Inhabited, Repr

namespace Descriptor

def isAccessor (d : Descriptor) : Bool := d.getter.isSome || d.setter.isSome

def isData (d : Descriptor) : Bool := d.value.isSome || d.writable.isSome

def fresh (d : Descriptor) : Property :=
  let slot := if d.isAccessor then
      Slot.accessor (d.getter.getD .undefined) (d.setter.getD .undefined)
    else .data (d.value.getD .undefined) (d.writable.getD false)
  ⟨slot, d.enumerable.getD false, d.configurable.getD false⟩

def onto (d : Descriptor) (p : Property) : Property :=
  let slot := match p.slot with
    | .data value writable =>
      if d.isAccessor then .accessor (d.getter.getD .undefined) (d.setter.getD .undefined)
      else .data (d.value.getD value) (d.writable.getD writable)
    | .accessor getter setter =>
      if d.isData then .data (d.value.getD .undefined) (d.writable.getD false)
      else .accessor (d.getter.getD getter) (d.setter.getD setter)
  ⟨slot, d.enumerable.getD p.enumerable, d.configurable.getD p.configurable⟩

/-- Whether the definition leaves alone what a property does not let change. -/
def respects (d : Descriptor) (p : Property) : Bool :=
  p.configurable ||
    (d.configurable != some true && (d.enumerable.all (· == p.enumerable)) &&
      match p.slot with
      | .data value writable =>
        !d.isAccessor && (writable || (d.writable != some true && d.value.all value.same))
      | .accessor getter setter =>
        !d.isData && d.getter.all getter.same && d.setter.all setter.same)

def ofProperty (p : Property) : Descriptor :=
  match p.slot with
  | .data value writable =>
    { value := some value, writable := some writable, enumerable := some p.enumerable,
      configurable := some p.configurable }
  | .accessor getter setter =>
    { getter := some getter, setter := some setter, enumerable := some p.enumerable,
      configurable := some p.configurable }

end Descriptor

def readDescriptor (e : Engine) (r : Ref) : Run Descriptor := do
  let field (name : String) : Run (Option Value) := do
    if ← hasProperty e r (.named name) then return some (← getNamed e r name) else return none
  let enumerable ← field "enumerable"
  let configurable ← field "configurable"
  let value ← field "value"
  let writable ← field "writable"
  let getter ← field "get"
  match getter with
  | some g => if g != .undefined && !(← isCallable g) then throwType "invalid getter"
  | none => pure ()
  let setter ← field "set"
  match setter with
  | some s => if s != .undefined && !(← isCallable s) then throwType "invalid setter"
  | none => pure ()
  let d : Descriptor := ⟨value, getter, setter, writable.map Value.truthy, enumerable.map Value.truthy,
    configurable.map Value.truthy⟩
  if d.isAccessor && d.isData then throwType "cannot have setter/getter and value or writable"
  return d

def proxied? (r : Ref) : Run (Option (Ref × Ref)) := do
  return match (← object r).payload with
    | .proxy target handler _ => some (target, handler)
    | _ => none

def answer? (e : Engine) (handler : Ref) (name : String) (args : List Value) : Run (Option Value) := do
  match ← trap? (getProperty e) handler name with
  | some f => return some (← e.call f (.object handler) args)
  | none => return none

def throwNested {α : Type} : Run α := throwNew .internal "stack overflow"

def extensibleFrom (e : Engine) : Nat → Ref → Run Bool
  | 0, _ => throwNested
  | fuel + 1, r => do
    match ← proxied? r with
    | none => return (← object r).extensible
    | some (target, handler) =>
      match ← answer? e handler "isExtensible" [.object target] with
      | none => extensibleFrom e fuel target
      | some answer =>
        if answer.truthy == (← extensibleFrom e fuel target) then return answer.truthy
        else throwType "proxy: inconsistent isExtensible"

def isExtensible (e : Engine) (r : Ref) : Run Bool := extensibleFrom e chainLimit r

def inconsistentPrototype : String := "proxy: inconsistent prototype"

def protoFrom (e : Engine) : Nat → Ref → Run (Option Ref)
  | 0, _ => throwNested
  | fuel + 1, r => do
    match ← proxied? r with
    | none => return (← object r).proto
    | some (target, handler) =>
      match ← answer? e handler "getPrototypeOf" [.object target] with
      | none => protoFrom e fuel target
      | some answer =>
        if !(answer.isObject || answer == .null) then throwType inconsistentPrototype
        if !(← isExtensible e target) then
          if (← protoFrom e fuel target) != answer.ref? then throwType inconsistentPrototype
        return answer.ref?

def prototypeOf (e : Engine) (r : Ref) : Run (Option Ref) := protoFrom e chainLimit r

def inheritsFrom (e : Engine) (target : Ref) : Nat → Ref → Run Bool
  | 0, _ => return false
  | fuel + 1, r => do
    match ← prototypeOf e r with
    | none => return false
    | some p => if p == target then return true else inheritsFrom e target fuel p

/-- Whether a handler may describe a property so, where the target has this one. -/
def Property.describes (p : Property) (held : Option Property) (extensible : Bool) : Bool :=
  match held with
  | none => extensible && p.configurable
  | some q =>
    (Descriptor.ofProperty p).respects q &&
      (p.configurable || !q.configurable && ((p.slot matches .data _ true) == (q.slot matches .data _ true)))

def ownFrom (e : Engine) : Nat → Ref → Key → Run (Option Property)
  | 0, _, _ => throwNested
  | fuel + 1, r, k => do
    match ← proxied? r with
    | none => return (← get).ownProperty? r k
    | some (target, handler) =>
      match ← answer? e handler "getOwnPropertyDescriptor" [.object target, k.toValue] with
      | none => ownFrom e fuel target k
      | some answer =>
        let inconsistent : Run (Option Property) :=
          throwType "proxy: inconsistent getOwnPropertyDescriptor"
        let held ← ownFrom e fuel target k
        match answer with
        | .undefined =>
          let loose := (← object target).extensible
          if held.all fun p => p.configurable && loose then return none else inconsistent
        | .object described =>
          let extensible ← isExtensible e target
          let p := (← readDescriptor e described).fresh
          if p.describes held extensible then return some p else inconsistent
        | _ => inconsistent

def ownProperty? (e : Engine) (r : Ref) (k : Key) : Run (Option Property) := ownFrom e chainLimit r k

def keyOfItem (v : Value) : Run Key := do
  match v with
  | .string s => return .ofUnits s
  | .symbol id => return .symbol id
  | _ => throwType "proxy: properties must be strings or symbols"

def keysFrom (e : Engine) : Nat → Ref → Run (List Key)
  | 0, _ => throwNested
  | fuel + 1, r => do
    match ← proxied? r with
    | none => return ownKeysOf (← get) r
    | some (target, handler) =>
      match ← answer? e handler "ownKeys" [.object target] with
      | none => keysFrom e fuel target
      | some answer =>
        let listed ← match answer with
          | .object r => itemsOfObject e r
          | _ => throwType "not an object"
        let keys ← listed.mapM keyOfItem
        if !keys.Nodup then throwType "proxy: duplicate property"
        let extensible ← isExtensible e target
        let held ← keysFrom e fuel target
        for k in held do
          let fixed := (← ownProperty? e target k).any fun p => !p.configurable || !extensible
          if fixed && !keys.contains k then
            throwType "proxy: target property must be present in proxy ownKeys"
        if !extensible && !keys.all held.contains then
          throwType
            "proxy: property not present in target were returned by non extensible proxy"
        return keys

def ownKeys (e : Engine) (r : Ref) : Run (List Key) := keysFrom e chainLimit r

def isListed (e : Engine) (r : Ref) (k : Key) : Run Bool :=
  return (← ownProperty? e r k).any Property.enumerable

def listedKeys (e : Engine) (r : Ref) : Run (List Key) := do
  (← ownKeys e r).filterM fun k => if k.isSymbol then return false else isListed e r k

end Patchbay.Script
