import Patchbay.Script.Property.Proxy
/-!
Changing properties: assignment, which respects setters and what may not be written, definition, which
respects what may not be redefined, and deletion.
-/
namespace Patchbay.Script

open Binary Text

def writeBytes (buffer : Ref) (index : Nat) (bytes : List UInt8) : Run Unit :=
  modifyObject buffer fun o =>
    match o.payload with
    | .buffer all =>
      { o with payload := .buffer ((bytes.zipIdx index).foldl (fun all (b, i) => all.setIfInBounds i b) all) }
    | _ => o

def elementBytes (e : Engine) (element : Element) (v : Value) : Run (List UInt8) := do
  if element.isBig then return element.ofBig (← toBigInt e v)
  else return element.ofNumber (← toNumber e v)

/-- How far behind the items of a list an index may lie to be kept among them. -/
def listGap : Nat := 1000000

def setItem (items : Array (Option Property)) (i : Nat) (p : Property) : Array (Option Property) :=
  if i < items.size then items.setIfInBounds i (some p)
  else (items ++ Array.replicate (i - items.size) none).push (some p)

def store (r : Ref) (k : Key) (p : Property) : Run Unit := do
  match k with
  | .index i =>
    match (← object r).payload with
    | .list items _ _ =>
      if i ≤ items.size + listGap then
        if items.size ≤ i then claimBytes (16 * (i + 1))
        modifyObject r fun o =>
          match o with
          | ⟨proto, extensible, props, .list items length resizable, secrets⟩ =>
            ⟨proto, extensible, props, .list (setItem items i p) (max length (i + 1)) resizable, secrets⟩
          | o => o
      else
        modifyObject r fun o =>
          let o := o.insert k p
          match o.payload with
          | .list items length resizable =>
            { o with payload := .list items (max length (i + 1)) resizable }
          | _ => o
    | _ => modifyObject r fun o => o.insert k p
  | k => modifyObject r fun o => o.insert k p

def create (r : Ref) (k : Key) (v : Value) : Run Unit := store r k (.plain v)

/-- Where a list is cut that is to have this length: behind the last of its items that cannot be deleted. -/
def Obj.cut (o : Obj) (items : Array (Option Property)) (length : Nat) : Nat :=
  let within := (items.toList.zipIdx.drop length).filterMap fun (p, n) => p.map fun p => (Key.index n, p)
  (within ++ o.props.toList).foldl (fun cut entry =>
    match entry with
    | (.index n, p) => if p.configurable then cut else max cut (n + 1)
    | _ => cut) length

/-- Sets the length of a list. The answer says whether all behind it could be deleted. -/
def setLength (r : Ref) (length : Nat) : Run Bool := do
  let o ← object r
  match o.payload with
  | .list items _ resizable =>
    let cut := o.cut items length
    modifyObject r fun o =>
      { o with
        payload := .list (items.take cut) cut resizable
        props := o.props.filter fun entry =>
          match entry.1 with
          | .index n => n < cut
          | _ => true }
    return cut == length
  | _ => return true

def listLength (e : Engine) (v : Value) : Run Nat := do
  let d ← toNumber e v
  match d.toInt? with
  | some n => if 0 ≤ n && n < 4294967296 then return n.toNat else throwRange "invalid array length"
  | none => throwRange "invalid array length"

def describe (d : Descriptor) : Run Value := do
  let r ← newObject .object
  let field (name : String) (v : Option Value) : Run Unit := do
    match v with
    | some v => create r (.named name) v
    | none => pure ()
  field "get" d.getter
  field "set" d.setter
  field "value" d.value
  field "writable" (d.writable.map .bool)
  field "enumerable" (d.enumerable.map .bool)
  field "configurable" (d.configurable.map .bool)
  return .object r

abbrev Refusal := Option String

def expectDone (refusal : Refusal) : Run Unit := do
  match refusal with
  | none => pure ()
  | some message => throwType message

/-- Whether a key is an index past the end of a list whose length cannot change. -/
def Payload.ends : Payload → Key → Bool
  | .list _ length false, .index n => length ≤ n
  | _, _ => false

def fixedLength : String := "'length' is read-only"

def defineOwn (e : Engine) (r : Ref) (k : Key) (d : Descriptor) : Run Refusal := do
  let o ← object r
  match o.payload, k with
  | .typed element buffer offset length, .index i =>
    if length ≤ i then return some "out-of-bound index in typed array"
    if d.isAccessor || [d.writable, d.enumerable, d.configurable].contains (some false) then
      return some "invalid descriptor flags"
    match d.value with
    | some v => writeBytes buffer (offset + i * element.size) (← elementBytes e element v)
    | none => pure ()
    return none
  | _, k =>
    match (← get).ownProperty? r k with
    | none =>
      if !o.extensible then return some "object is not extensible"
      if o.payload.ends k then return some fixedLength
      store r k d.fresh
      return none
    | some p =>
      if !d.respects p then return some "property is not configurable"
      match o.payload with
      | .list _ length _ =>
        if k == .named "length" then
          let length ← match d.value with
            | some v => listLength e v
            | none => pure length
          let deleted ← setLength r length
          modifyObject r fun o =>
            match o.payload with
            | .list items length _ =>
              { o with payload := .list items length ((d.onto p).slot matches .data _ true) }
            | _ => o
          return if deleted then none else some "not configurable"
        else store r k (d.onto p)
      | .wrapper (.string s) => if (textProperty? s k).isNone then store r k (d.onto p)
      | _ => store r k (d.onto p)
      return none

/-- Whether a handler may say that it has defined a property, of which the target now has this one. -/
def Descriptor.agrees (d : Descriptor) (held : Option Property) (extensible : Bool) : Bool :=
  let fixes := d.configurable == some false
  match held with
  | none => extensible && !fixes
  | some p =>
    d.respects p && !(p.configurable && fixes) &&
      !(!p.configurable && (p.slot matches .data _ true) && d.writable == some false)

def defineFrom (e : Engine) : Nat → Ref → Key → Descriptor → Run Refusal
  | 0, _, _, _ => throwNested
  | fuel + 1, r, k, d => do
    match ← proxied? r with
    | none => defineOwn e r k d
    | some (target, handler) =>
      match ← answer? e handler "defineProperty" [.object target, k.toValue, ← describe d] with
      | none => defineFrom e fuel target k d
      | some answer =>
        if !answer.truthy then return some "proxy: defineProperty exception"
        let held ← ownProperty? e target k
        if d.agrees held (← object target).extensible then return none
        else throwType "proxy: inconsistent defineProperty"

def defineProperty (e : Engine) (r : Ref) (k : Key) (d : Descriptor) : Run Refusal :=
  defineFrom e chainLimit r k d

inductive Assigned
  | done
  | readOnly
  | noSetter
  | notExtensible
  | refused (message : String)
  deriving DecidableEq, Repr

def Assigned.ofRefusal : Refusal → Assigned
  | none => done
  | some message => refused message

/-- Assigns to the object that an assignment is for, once it is known that no setter takes the value. -/
def putOwn (e : Engine) (k : Key) (v : Value) (target : Ref) : Run Assigned := do
  let o ← object target
  match (← get).ownProperty? target k with
  | some ⟨.data _ true, enumerable, configurable⟩ =>
    match o.payload with
    | .typed element buffer offset _ =>
      match k with
      | .index i => writeBytes buffer (offset + i * element.size) (← elementBytes e element v)
      | k => store target k ⟨.data v true, enumerable, configurable⟩
    | .list .. =>
      if k == .named "length" then
        if !(← setLength target (← listLength e v)) then return .refused "not configurable"
      else store target k ⟨.data v true, enumerable, configurable⟩
    | _ => store target k ⟨.data v true, enumerable, configurable⟩
    return .done
  | some ⟨.data _ false, _, _⟩ => return .readOnly
  | some _ => return .noSetter
  | none =>
    match o.payload, k with
    | .typed .., .index _ => return .done
    | payload, k =>
      if payload.ends k then return .refused fixedLength
      else if o.extensible then
        create target k v
        return .done
      else return .notExtensible

def putThrough (e : Engine) (k : Key) (v : Value) (target : Ref) : Run Assigned := do
  match ← ownProperty? e target k with
  | some ⟨.data _ true, _, _⟩ => return .ofRefusal (← defineProperty e target k { value := some v })
  | some ⟨.data _ false, _, _⟩ => return .readOnly
  | some _ => return .refused "setter is forbidden"
  | none => return .ofRefusal (← defineProperty e target k (.ofProperty (.plain v)))

def putOnReceiver (e : Engine) (k : Key) (v receiver : Value) : Run Assigned := do
  match receiver with
  | .object target =>
    if (← payload target) matches .proxy .. then putThrough e k v target else putOwn e k v target
  | _ => return .notExtensible

/-- Assigns to a property that is looked for from an object on, for a receiver. -/
def putFrom (e : Engine) : Nat → Ref → Key → Value → Value → Run Assigned
  | 0, _, _, _, _ => throwNested
  | fuel + 1, r, k, v, receiver => do
    let o ← object r
    match (← get).ownProperty? r k with
    | some ⟨.data _ writable, _, _⟩ => if writable then putOnReceiver e k v receiver else return .readOnly
    | some ⟨.accessor _ setter, _, _⟩ =>
      if setter == .undefined then return .noSetter
      else
        let _ ← e.call setter receiver [v]
        return .done
    | none =>
      match o.payload, k with
      | .proxy target handler _, k =>
        match ← trap? (getProperty e) handler "set" with
        | some f =>
          let ok ← e.call f (.object handler) [.object target, k.toValue, v, receiver]
          if !ok.truthy then return .refused "proxy: cannot set property"
          if (← e.own target k).all (·.takes v) then return .done
          else throwType "proxy: inconsistent set"
        | none => putFrom e fuel target k v receiver
      | .typed element _ _ _, .index _ =>
        -- An index past the end takes nothing, but the value is made an element first.
        if receiver == .object r then
          let _ ← elementBytes e element v
        return .done
      | _, k =>
        match o.proto with
        | some p => putFrom e fuel p k v receiver
        | none => putOnReceiver e k v receiver

def putProperty (e : Engine) (r : Ref) (k : Key) (v : Value) : Run Assigned :=
  putFrom e chainLimit r k v (.object r)

def checkAssigned (strict : Bool) (k : Key) (a : Assigned) : Run Unit := do
  if strict then
    match a with
    | .done => pure ()
    | .readOnly => throwType ("'" ++ (← shownKey k) ++ "' is read-only")
    | .noSetter => throwType "no setter for property"
    | .notExtensible => throwType "object is not extensible"
    | .refused message => throwType message

def putValue (e : Engine) (strict : Bool) (base : Value) (k : Key) (v : Value) : Run Unit := do
  match base with
  | .object r => checkAssigned strict k (← putProperty e r k v)
  | .undefined => throwType ("cannot set property '" ++ (← shownKey k) ++ "' of undefined")
  | .null => throwType ("cannot set property '" ++ (← shownKey k) ++ "' of null")
  | base =>
    let a ← match protoOf base with
      | some p => putFrom e chainLimit p.ref k v base
      | none => pure .notExtensible
    if a == .notExtensible then
      if strict then throwType "not an object"
    else checkAssigned strict k a

/-- Deletes a property of an object that is no proxy; the answer says whether it is gone. -/
def deleteOwn (r : Ref) (k : Key) : Run Bool := do
  match (← get).ownProperty? r k with
  | none => return true
  | some p =>
    let stays := match (← object r).payload, k with
      | .typed .., .index _ => true
      | _, _ => !p.configurable
    if stays then return false
    else
      modifyObject r fun o =>
        match o.payload, k with
        | .list items length resizable, .index i =>
          { o.remove k with payload := .list (items.setIfInBounds i none) length resizable }
        | _, _ => o.remove k
      return true

def deleteFrom (e : Engine) : Nat → Ref → Key → Run Bool
  | 0, _, _ => throwNested
  | fuel + 1, r, k => do
    match ← proxied? r with
    | none => deleteOwn r k
    | some (target, handler) =>
      match ← answer? e handler "deleteProperty" [.object target, k.toValue] with
      | none => deleteFrom e fuel target k
      | some answer =>
        if !answer.truthy then return false
        match ← ownProperty? e target k with
        | none => return true
        | some p =>
          if p.configurable && (← isExtensible e target) then return true
          else throwType "proxy: inconsistent deleteProperty"

def deleteProperty (e : Engine) (r : Ref) (k : Key) : Run Bool := deleteFrom e chainLimit r k

def preventFrom (e : Engine) : Nat → Ref → Run Bool
  | 0, _ => throwNested
  | fuel + 1, r => do
    match ← proxied? r with
    | none =>
      modifyObject r fun o => { o with extensible := false }
      return true
    | some (target, handler) =>
      match ← answer? e handler "preventExtensions" [.object target] with
      | none => preventFrom e fuel target
      | some answer =>
        if answer.truthy then
          if ← isExtensible e target then throwType "proxy: inconsistent preventExtensions"
        return answer.truthy

/-- Makes an object take no further properties; the answer says whether it takes none now. -/
def preventExtensions (e : Engine) (r : Ref) : Run Bool := preventFrom e chainLimit r

/-- Whether an object is the one sought or stands below it, as far as no proxy is between. -/
def passes (m : Machine) (sought : Ref) : Nat → Option Ref → Bool
  | 0, _ | _ + 1, none => false
  | fuel + 1, some r => r == sought || passes m sought fuel ((m.heap[r]?).getD default).proto

def setPrototypeFrom (e : Engine) : Nat → Ref → Option Ref → Run Refusal
  | 0, _, _ => throwNested
  | fuel + 1, r, p => do
    match ← proxied? r with
    | none =>
      let o ← object r
      if o.proto == p then return none
      if !o.extensible then return some "object is not extensible"
      if passes (← get) r chainLimit p then return some "circular prototype chain"
      modifyObject r fun o => { o with proto := p }
      return none
    | some (target, handler) =>
      let v := (p.map Value.object).getD .null
      match ← answer? e handler "setPrototypeOf" [.object target, v] with
      | none => setPrototypeFrom e fuel target p
      | some answer =>
        if !answer.truthy then return some "proxy: bad prototype"
        if !(← isExtensible e target) then
          if (← prototypeOf e target) != p then throwType inconsistentPrototype
        return none

def setPrototype (e : Engine) (r : Ref) (p : Option Ref) : Run Refusal :=
  setPrototypeFrom e chainLimit r p

/-- Seals an object: it takes no further properties, and those that it has can no longer be defined anew. One
that is frozen keeps their values as well. -/
def restrict (e : Engine) (r : Ref) (freezes : Bool) : Run Unit := do
  if !(← preventExtensions e r) then throwType "proxy preventExtensions handler returned false"
  for k in (← ownKeys e r) do
    let freezes ← if freezes then do
        pure ((← ownProperty? e r k).any fun p => p.slot matches .data _ true)
      else pure false
    expectDone (← defineProperty e r k
      { writable := if freezes then some false else none, configurable := some false })

/-- Whether an object takes no further properties and each that it has passes a test. -/
def isRestricted (e : Engine) (r : Ref) (test : Property → Bool) : Run Bool := do
  for k in (← ownKeys e r) do
    if (← ownProperty? e r k).any fun p => !test p then return false
  return !(← isExtensible e r)

end Patchbay.Script
