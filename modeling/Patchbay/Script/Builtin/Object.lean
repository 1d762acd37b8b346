import Patchbay.Script.Builtin.Invocation
/-!
Functions on objects as such: their properties, their prototypes and what may change of them.
-/
namespace Patchbay.Script

open Binary Text

namespace ObjectFn

def statics : List (String × Nat × ObjectFn) :=
  [("create", 2, create), ("getPrototypeOf", 1, getPrototypeOf), ("setPrototypeOf", 2, setPrototypeOf),
    ("defineProperty", 3, defineProperty), ("defineProperties", 2, defineProperties),
    ("getOwnPropertyNames", 1, getOwnPropertyNames),
    ("getOwnPropertySymbols", 1, getOwnPropertySymbols), ("keys", 1, keys), ("values", 1, values),
    ("entries", 1, entries), ("isExtensible", 1, isExtensible),
    ("preventExtensions", 1, preventExtensions),
    ("getOwnPropertyDescriptor", 2, getOwnPropertyDescriptor),
    ("getOwnPropertyDescriptors", 1, getOwnPropertyDescriptors), ("is", 2, is), ("assign", 2, assign),
    ("seal", 1, seal_), ("freeze", 1, freeze), ("isSealed", 1, isSealed), ("isFrozen", 1, isFrozen),
    ("fromEntries", 1, fromEntries), ("hasOwn", 2, hasOwn)]

def methods : List (String × Nat × ObjectFn) :=
  [("toString", 0, toString), ("toLocaleString", 0, toLocaleString), ("valueOf", 0, valueOf),
    ("hasOwnProperty", 1, hasOwnProperty), ("isPrototypeOf", 1, isPrototypeOf),
    ("propertyIsEnumerable", 1, propertyIsEnumerable)]

end ObjectFn

def describeProperty (p : Property) : Run Value := describe (.ofProperty p)

def asPrototype (v : Value) : Run (Option Ref) := do
  match v with
  | .object p => return some p
  | .null => return none
  | _ => throwType "not an object"

def behindProxies : Nat → Ref → Run Ref
  | 0, r => return r
  | fuel + 1, r => do
    match ← proxied? r with
    | some (target, _) => behindProxies fuel target
    | none => return r

def isListValue (v : Value) : Run Bool := do
  match v with
  | .object r => return ((← payload (← behindProxies chainLimit r)) matches .list ..)
  | _ => return false

def className (v : Value) : Run String := do
  match v with
  | .undefined => return "Undefined"
  | .null => return "Null"
  | .object r =>
    if ← isListValue v then return "Array"
    if ← isCallable v then return "Function"
    return match ← payload r with
      | .error => "Error"
      | .wrapper (.bool _) => "Boolean"
      | .wrapper (.number _) => "Number"
      | .wrapper (.string _) => "String"
      | .date _ => "Date"
      | .regexp .. => "RegExp"
      | .arguments => "Arguments"
      | _ => "Object"
  | .string _ => return "String"
  | .number _ => return "Number"
  | .bool _ => return "Boolean"
  | _ => return "Object"

def defaultText (e : Engine) (v : Value) : Run Value := do
  let name ← className v
  let tag ← if v.isNullish then pure .undefined else getValue e v (.symbol symbolToStringTag)
  let name := match tag with
    | .string s => s
    | _ => .ofString name
  return .string (.ofString "[object " ++ name ++ .ofString "]")

def newPair (a b : Value) : Run Value := return .object (← newList [a, b])

def defineAll (e : Engine) (r : Ref) (v : Value) : Run Unit := do
  let source ← toObject v
  for k in (← ownKeys e source) do
    if ← isListed e source k then
      let d ← readDescriptor e (← requireObject (← getProperty e source k))
      expectDone (← defineProperty e r k d)

/-- The listed properties of a value, each through a function of its key and value. -/
def mapListed (e : Engine) (v : Value) (f : Key → Value → Run Value) : Run Value := do
  let r ← toObject v
  let keys ← listedKeys e r
  return .object (← newList (← keys.mapM fun k => do f k (← getProperty e r k)))

def ObjectFn.run (f : ObjectFn) (i : Invocation) : Run Value := do
  let e := i.engine
  match f with
  | make =>
    if i.target.any (· != .object i.callee) then i.make .object .plain
    else if (i.arg 0).isNullish then return .object (← newObject .object)
    else return .object (← toObject (i.arg 0))
  | keys =>
    let r ← toObject (i.arg 0)
    return .object (← newList ((← listedKeys e r).map Key.toValue))
  | values => mapListed e (i.arg 0) fun _ v => return v
  | entries => mapListed e (i.arg 0) fun k v => newPair k.toValue v
  | assign =>
    let r ← toObject (i.arg 0)
    for v in i.args.drop 1 do
      if !v.isNullish then
        let source ← toObject v
        for k in (← ownKeys e source) do
          if ← isListed e source k then
            putValue e true (.object r) k (← getProperty e source k)
    return .object r
  | create =>
    let proto ← match i.arg 0 with
      | .object p => pure (some p)
      | .null => pure none
      | _ => throwType "not a prototype"
    let r ← allocate { proto := proto }
    if i.arg 1 != .undefined then defineAll e r (i.arg 1)
    return .object r
  | defineProperty =>
    let r ← requireObject (i.arg 0)
    let k ← toKey e (i.arg 1)
    expectDone (← Script.defineProperty e r k (← readDescriptor e (← requireObject (i.arg 2))))
    return i.arg 0
  | defineProperties =>
    defineAll e (← requireObject (i.arg 0)) (i.arg 1)
    return i.arg 0
  | getPrototypeOf => return ((← prototypeOf e (← toObject (i.arg 0))).map Value.object).getD .null
  | setPrototypeOf =>
    if (i.arg 0).isNullish then throwType "not an object"
    let p ← asPrototype (i.arg 1)
    match i.arg 0 with
    | .object r => expectDone (← setPrototype e r p)
    | _ => pure ()
    return i.arg 0
  | freeze =>
    match i.arg 0 with
    | .object r => restrict e r true
    | _ => pure ()
    return i.arg 0
  | seal_ =>
    match i.arg 0 with
    | .object r => restrict e r false
    | _ => pure ()
    return i.arg 0
  | isFrozen =>
    match i.arg 0 with
    | .object r => return .bool (← isRestricted e r fun p => !p.configurable && !(p.slot matches .data _ true))
    | _ => return .bool true
  | isSealed =>
    match i.arg 0 with
    | .object r => return .bool (← isRestricted e r fun p => !p.configurable)
    | _ => return .bool true
  | preventExtensions =>
    match i.arg 0 with
    | .object r =>
      if !(← Script.preventExtensions e r) then throwType "proxy preventExtensions handler returned false"
    | _ => pure ()
    return i.arg 0
  | isExtensible =>
    match i.arg 0 with
    | .object r => return .bool (← Script.isExtensible e r)
    | _ => return .bool false
  | getOwnPropertyNames =>
    let keys ← ownKeys e (← toObject (i.arg 0))
    return .object (← newList ((keys.filter fun k => !k.isSymbol).map Key.toValue))
  | getOwnPropertySymbols =>
    let keys ← ownKeys e (← toObject (i.arg 0))
    return .object (← newList ((keys.filter Key.isSymbol).map Key.toValue))
  | getOwnPropertyDescriptor =>
    let r ← toObject (i.arg 0)
    match ← ownProperty? e r (← toKey e (i.arg 1)) with
    | some p => describeProperty p
    | none => return .undefined
  | getOwnPropertyDescriptors =>
    let source ← toObject (i.arg 0)
    let r ← newObject .object
    for k in (← ownKeys e source) do
      match ← ownProperty? e source k with
      | some p => Script.create r k (← describeProperty p)
      | none => pure ()
    return .object r
  | is => return .bool ((i.arg 0).same (i.arg 1))
  | fromEntries =>
    let r ← newObject .object
    for item in (← itemsOf e (i.arg 0)) do
      let pair ← requireObject item
      let k ← toKey e (← getProperty e pair (.index 0))
      Script.create r k (← getProperty e pair (.index 1))
    return .object r
  | hasOwn =>
    let r ← toObject (i.arg 0)
    return .bool (← ownProperty? e r (← toKey e (i.arg 1))).isSome
  | toString => defaultText e i.this
  | toLocaleString => invoke e i.this (.named "toString") []
  | valueOf => return .object (← toObject i.this)
  | hasOwnProperty =>
    let k ← toKey e (i.arg 0)
    return .bool (← ownProperty? e (← toObject i.this) k).isSome
  | isPrototypeOf =>
    match i.arg 0 with
    | .object r => return .bool (← inheritsFrom e (← toObject i.this) chainLimit r)
    | _ => return .bool false
  | propertyIsEnumerable =>
    let k ← toKey e (i.arg 0)
    return .bool ((← ownProperty? e (← toObject i.this) k).any Property.enumerable)
  | protoGet => return ((← prototypeOf e (← toObject i.this)).map Value.object).getD .null
  | protoSet =>
    if i.this.isNullish then throwType "not an object"
    match i.this, i.arg 0 with
    | .object r, .object p => expectDone (← setPrototype e r (some p))
    | .object r, .null => expectDone (← setPrototype e r none)
    | _, _ => pure ()
    return .undefined

end Patchbay.Script
