import Patchbay.Script.Builtin.Collection
/-!
Buffers of bytes, the typed arrays that show them as rows of numbers, and views that read and write
single numbers at any place.
-/
namespace Patchbay.Script

open Binary Text

def BufferFn.statics : List (String × Nat × BufferFn) := [("isView", 1, isView)]

def BufferFn.methods : List (String × Nat × BufferFn) := [("slice", 2, slice)]

def bufferLimit : Nat := 67108864

def newBuffer (size : Nat) : Run Ref := do
  claimBytes size
  if bufferLimit < size then throwNew .internal "out of memory"
  newObject .buffer (.buffer (Array.replicate size 0))

def sizeArg (i : Invocation) (n : Nat) (complaint : String) : Run Nat := do
  let d ← toInteger i.engine (i.arg n)
  match d.toInt? with
  | some n => if 0 ≤ n && n ≤ lengthLimit then return n.toNat else throwRange complaint
  | none => throwRange complaint

def bytesOf (r : Ref) : Run (Array UInt8) := do
  match ← payload r with
  | .buffer bytes => return bytes
  | _ => throwType "ArrayBuffer object expected"

def isViewValue (v : Value) : Run Bool := do
  match v with
  | .object r =>
    return match ← payload r with
      | .typed .. | .view .. => true
      | _ => false
  | _ => return false

def BufferFn.run (f : BufferFn) (i : Invocation) : Run Value := do
  match f with
  | make =>
    i.requireNew
    let size ← sizeArg i 0 "invalid array buffer length"
    i.make .buffer (← payload (← newBuffer size))
  | isView => return .bool (← isViewValue (i.arg 0))
  | byteLength => return .ofNat (← bytesOf (← requireObject i.this)).size
  | slice =>
    let bytes ← bytesOf (← requireObject i.this)
    let start ← positionOf i 0 bytes.size 0
    let stop ← positionOf i 1 bytes.size bytes.size
    return .object (← newObject .buffer (.buffer (bytes.extract start stop)))

namespace TypedFn

def methods : List (String × Nat × TypedFn) :=
  [("set", 1, set), ("values", 0, values), ("keys", 0, keys), ("entries", 0, entries), ("at", 1, at_),
    ("fill", 1, fill), ("find", 1, find), ("findIndex", 1, findIndex), ("subarray", 2, subarray),
    ("slice", 2, slice), ("map", 1, map), ("filter", 1, filter), ("forEach", 1, forEach),
    ("reduce", 1, reduce), ("some", 1, some), ("every", 1, every), ("reverse", 0, reverse),
    ("sort", 1, sort), ("join", 1, join), ("indexOf", 1, indexOf), ("includes", 1, includes)]

def statics : List (String × Nat × TypedFn) := [("from", 1, from_), ("of", 0, of_)]

def getters : List (String × TypedFn) :=
  [("length", length), ("byteLength", byteLength), ("byteOffset", byteOffset), ("buffer", buffer)]

end TypedFn

/-- The kind of the elements, the buffer, the offset into it and the length of a typed array. -/
structure TypedRow where
  element : Element
  buffer : Ref
  offset : Nat
  length : Nat

def typedRow (v : Value) : Run TypedRow := do
  match v with
  | .object r =>
    match ← payload r with
    | .typed element buffer offset length => return ⟨element, buffer, offset, length⟩
    | _ => throwType "not a TypedArray"
  | _ => throwType "not a TypedArray"

namespace TypedRow

def toPayload (t : TypedRow) : Payload := .typed t.element t.buffer t.offset t.length

def values (t : TypedRow) : Run (List Value) := do
  let bytes ← bytesOf t.buffer
  return (List.range t.length).map fun n => elementAt bytes t.element (t.offset + n * t.element.size)

def write (e : Engine) (t : TypedRow) (start : Nat) (values : List Value) : Run Unit := do
  for (v, n) in values.zipIdx start do
    let bytes ← elementBytes e t.element v
    if n < t.length then writeBytes t.buffer (t.offset + n * t.element.size) bytes

end TypedRow

def newRow (element : Element) (length : Nat) : Run TypedRow := do
  return ⟨element, ← newBuffer (length * element.size), 0, length⟩

def typedValue (t : TypedRow) : Run Value :=
  return .object (← newObject (.ofElement t.element) t.toPayload)

def typedOf (e : Engine) (element : Element) (values : List Value) : Run TypedRow := do
  let t ← newRow element values.length
  t.write e 0 values
  return t

def typedOver (i : Invocation) (element : Element) (buffer : Ref) (size : Nat) : Run TypedRow := do
  let offset ← sizeArg i 1 "invalid offset"
  if offset % element.size != 0 || size < offset then throwRange "invalid offset"
  match i.arg 2 with
  | .undefined =>
    if (size - offset) % element.size != 0 then throwRange "invalid length"
    return ⟨element, buffer, offset, (size - offset) / element.size⟩
  | _ =>
    let length ← sizeArg i 2 "invalid length"
    if size < offset + length * element.size then throwRange "invalid length"
    return ⟨element, buffer, offset, length⟩

def makeTyped (i : Invocation) (element : Element) : Run Value := do
  i.requireNew
  let row ← match i.arg 0 with
    | .object r =>
      match ← payload r with
      | .buffer bytes => typedOver i element r bytes.size
      | _ => do typedOf i.engine element (← sourceItems i.engine (.object r))
    | _ => do newRow element (← sizeArg i 0 "invalid array buffer length")
  i.make (.ofElement element) row.toPayload

def makerElement (v : Value) : Run Element := do
  match v with
  | .object r =>
    match ← payload r with
    | .native (.typed (.make element)) => return element
    | _ => throwType "not a TypedArray"
  | _ => throwType "not a TypedArray"

/-- The order of the elements of a typed array. What is no number stands last, and a negative zero before the
other. -/
def elementBefore (a b : Value) : Bool :=
  match a, b with
  | .bigint a, .bigint b => a < b
  | .number a, .number b =>
    !a.isNaN && (b.isNaN || Double.lt a b || a.isNegative && !b.isNegative)
  | _, _ => false

def TypedFn.run (f : TypedFn) (i : Invocation) : Run Value := do
  let e := i.engine
  match f with
  | abstractMake => throwType "cannot be called"
  | make element => makeTyped i element
  | of_ => typedValue (← typedOf e (← makerElement i.this) i.args)
  | from_ =>
    let element ← makerElement i.this
    let items ← sourceItems e (i.arg 0)
    let items ← if i.arg 1 == .undefined then pure items
      else do
        let f ← i.function 1
        items.zipIdx.mapM fun (v, n) => i.apply f (i.arg 2) [v, .ofNat n]
    typedValue (← typedOf e element items)
  | tag =>
    match i.this with
    | .object r =>
      match ← payload r with
      | .typed element .. => return .ofString (element.name ++ "Array")
      | _ => return .undefined
    | _ => return .undefined
  | f =>
    let t ← typedRow i.this
    match f with
    | length => return .ofNat t.length
    | byteLength => return .ofNat (t.length * t.element.size)
    | byteOffset => return .ofNat t.offset
    | buffer => return .object t.buffer
    | subarray =>
      let start ← positionOf i 0 t.length 0
      let stop ← positionOf i 1 t.length t.length
      typedValue { t with offset := t.offset + start * t.element.size, length := stop - start }
    | set =>
      let items ← itemsOfObject e (← toObject (i.arg 0))
      let start ← sizeArg i 1 "invalid array length"
      if t.length < start + items.length then throwRange "invalid array length"
      t.write e start items
      return .undefined
    | slice =>
      let start ← positionOf i 0 t.length 0
      let stop ← positionOf i 1 t.length t.length
      typedValue (← typedOf e t.element (((← t.values).take stop).drop start))
    | map =>
      let f ← i.function 0
      let items ← (← t.values).zipIdx.mapM fun (v, n) => i.apply f (i.arg 1) [v, .ofNat n, i.this]
      typedValue (← typedOf e t.element items)
    | filter =>
      let f ← i.function 0
      let kept ← (← t.values).zipIdx.filterM fun (v, n) => do
        return (← i.apply f (i.arg 1) [v, .ofNat n, i.this]).truthy
      typedValue (← typedOf e t.element (kept.map Prod.fst))
    | fill =>
      let start ← positionOf i 1 t.length 0
      let stop ← positionOf i 2 t.length t.length
      t.write e start (List.replicate (stop - start) (i.arg 0))
      return i.this
    | reverse =>
      t.write e 0 (← t.values).reverse
      return i.this
    | sort =>
      let before (a b : Value) : Run Bool := do
        if i.arg 0 == .undefined then return elementBefore b a
        else return Double.lt .zero (← toNumber e (← i.apply (i.arg 0) .undefined [a, b]))
      t.write e 0 (← sortRuns before t.length (← t.values))
      return i.this
    | forEach => ListFn.run .forEach i
    | join => ListFn.run .join i
    | indexOf => ListFn.run .indexOf i
    | includes => ListFn.run .includes i
    | reduce => ListFn.run .reduce i
    | some => ListFn.run .some i
    | every => ListFn.run .every i
    | find => ListFn.run .find i
    | findIndex => ListFn.run .findIndex i
    | at_ => ListFn.run .at_ i
    | keys => listIterator i .keys
    | entries => listIterator i .entries
    | _ => listIterator i .values

def ViewFn.getters : List (String × ViewFn) :=
  [("buffer", buffer), ("byteLength", byteLength), ("byteOffset", byteOffset)]

def ViewFn.methods : List (String × Nat × ViewFn) :=
  (Element.all.filter (· != .clamped)).flatMap fun element =>
    [("get" ++ element.name, 1, ViewFn.get element), ("set" ++ element.name, 2, ViewFn.set element)]

def makeView (i : Invocation) : Run Value := do
  i.requireNew
  let buffer ← match i.arg 0 with
    | .object r => pure r
    | _ => throwType "ArrayBuffer object expected"
  let bytes ← bytesOf buffer
  let offset ← sizeArg i 1 "invalid byteOffset"
  if bytes.size < offset then throwRange "invalid byteOffset"
  let length ← match i.arg 2 with
    | .undefined => pure (bytes.size - offset)
    | _ => sizeArg i 2 "invalid byteLength"
  if bytes.size < offset + length then throwRange "invalid byteLength"
  i.make .view (.view buffer offset length)

def ordered (littleEnd : Value) (bytes : List UInt8) : List UInt8 :=
  if littleEnd.truthy then bytes else bytes.reverse

def ViewFn.run (f : ViewFn) (i : Invocation) : Run Value := do
  match f with
  | make => makeView i
  | f =>
    match ← payload (← requireObject i.this) with
    | .view base offset length =>
      match f with
      | buffer => return .object base
      | byteLength => return .ofNat length
      | byteOffset => return .ofNat offset
      | get element =>
        let place ← sizeArg i 0 "invalid array index"
        if length < place + element.size then throwRange "out of bound"
        let bytes ← bytesOf base
        let part := (bytes.extract (offset + place) (offset + place + element.size)).toList
        return element.value (ordered (i.arg 1) part)
      | set element =>
        let place ← sizeArg i 0 "invalid array index"
        let bytes ← elementBytes i.engine element (i.arg 1)
        if length < place + element.size then throwRange "out of bound"
        writeBytes base (offset + place) (ordered (i.arg 2) bytes)
        return .undefined
      | make => return .undefined
    | _ => throwType "DataView object expected"

end Patchbay.Script
