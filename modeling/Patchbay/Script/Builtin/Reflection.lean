import Patchbay.Script.Builtin.Object
/-!
Proxies, and the functions that do by name what the language does by its notations.
-/
namespace Patchbay.Script

def ReflectFn.members : List (String × Nat × ReflectFn) :=
  [("apply", 3, apply), ("construct", 2, construct), ("defineProperty", 3, defineProperty),
    ("deleteProperty", 2, deleteProperty), ("get", 2, get), ("getOwnPropertyDescriptor", 2,
    getOwnPropertyDescriptor), ("getPrototypeOf", 1, getPrototypeOf), ("has", 2, has),
    ("isExtensible", 1, isExtensible), ("ownKeys", 1, ownKeys), ("preventExtensions", 1,
    preventExtensions), ("set", 3, set), ("setPrototypeOf", 2, setPrototypeOf)]

def makeProxy (i : Invocation) : Run Value := do
  i.requireNew
  match i.arg 0, i.arg 1 with
  | .object target, .object handler =>
    let callable ← isCallable (i.arg 0)
    return .object (← allocate { proto := none, payload := .proxy target handler callable })
  | _, _ => throwType "not an object"

def ReflectFn.run (f : ReflectFn) (i : Invocation) : Run Value := do
  let e := i.engine
  match f with
  | proxy => makeProxy i
  | apply =>
    let f ← i.function 0
    i.apply f (i.arg 1) (← itemsOfObject e (← requireObject (i.arg 2)))
  | construct =>
    let args ← itemsOfObject e (← requireObject (i.arg 1))
    e.construct (i.arg 0) args (if i.args.length < 3 then i.arg 0 else i.arg 2)
  | f =>
    let r ← requireObject (i.arg 0)
    match f with
    | defineProperty =>
      let k ← toKey e (i.arg 1)
      let d ← readDescriptor e (← requireObject (i.arg 2))
      return .bool (← Script.defineProperty e r k d).isNone
    | deleteProperty => return .bool (← Script.deleteProperty e r (← toKey e (i.arg 1)))
    | .get =>
      let k ← toKey e (i.arg 1)
      getFrom e chainLimit r k (if i.args.length < 3 then i.arg 0 else i.arg 2)
    | set =>
      let k ← toKey e (i.arg 1)
      let receiver := if i.args.length < 4 then i.arg 0 else i.arg 3
      return .bool ((← putFrom e chainLimit r k (i.arg 2) receiver) == .done)
    | has => return .bool (← hasProperty e r (← toKey e (i.arg 1)))
    | ownKeys => return .object (← newList ((← Script.ownKeys e r).map Key.toValue))
    | getPrototypeOf => return ((← prototypeOf e r).map Value.object).getD .null
    | setPrototypeOf => return .bool (← setPrototype e r (← asPrototype (i.arg 1))).isNone
    | isExtensible => return .bool (← Script.isExtensible e r)
    | preventExtensions => return .bool (← Script.preventExtensions e r)
    | _ =>
      match ← ownProperty? e r (← toKey e (i.arg 1)) with
      | some p => describeProperty p
      | none => return .undefined

end Patchbay.Script
