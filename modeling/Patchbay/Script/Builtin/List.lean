import Patchbay.Script.Builtin.Object
/-!
Functions on lists. They work on every object that tells a length, and take its items one after another,
each as it is by then.
-/
namespace Patchbay.Script

open Binary Text

namespace ListFn

def statics : List (String × Nat × ListFn) := [("isArray", 1, isArray), ("from", 1, from_), ("of", 0, of_)]

def methods : List (String × Nat × ListFn) :=
  [("at", 1, at_), ("concat", 1, concat), ("every", 1, every), ("some", 1, some), ("forEach", 1, forEach),
    ("map", 1, map), ("filter", 1, filter), ("reduce", 1, reduce), ("reduceRight", 1, reduceRight),
    ("fill", 1, fill), ("find", 1, find), ("findIndex", 1, findIndex), ("findLast", 1, findLast),
    ("findLastIndex", 1, findLastIndex), ("indexOf", 1, indexOf), ("lastIndexOf", 1, lastIndexOf),
    ("includes", 1, includes), ("join", 1, join), ("pop", 0, pop), ("push", 1, push),
    ("shift", 0, shift), ("unshift", 1, unshift), ("reverse", 0, reverse),
    ("sort", 1, sort), ("slice", 2, slice), ("splice", 2, splice), ("copyWithin", 2, copyWithin),
    ("flatMap", 1, flatMap), ("flat", 0, flat), ("keys", 0, keys), ("entries", 0, entries)]

end ListFn

def listValue (items : List Value) : Run Value := return .object (← newList items)

def positionOf (i : Invocation) (n length default : Nat) : Run Nat := do
  match i.arg n with
  | .undefined => return default
  | v => return relativeIndex (← toInteger i.engine v) length

/-- The indices below a length, as far as there is memory to go through them. -/
def indicesBelow (length : Nat) : Run (List Nat) := do
  if wholeLimit < length then throwNew .internal "out of memory"
  return List.range length

def item? (e : Engine) (r : Ref) (n : Nat) : Run (Option Value) := do
  if ← hasProperty e r (.index n) then return some (← getProperty e r (.index n)) else return none

def putItem (e : Engine) (r : Ref) (n : Nat) (v : Value) : Run Unit :=
  putValue e true (.object r) (.index n) v

def dropItem (e : Engine) (r : Ref) (n : Nat) : Run Unit := do
  if !(← deleteProperty e r (.index n)) then throwType "could not delete property"

def tellLength (e : Engine) (r : Ref) (length : Nat) : Run Unit :=
  putValue e true (.object r) (.named "length") (.ofNat length)

/-- Takes the items under some indices one after another, each as it is when its turn comes. An index without
a property is passed over. -/
def walkItems {α β : Type} (e : Engine) (r : Ref) (act : α → Nat → Value → Run (α ⊕ β)) :
    List Nat → α → Run (α ⊕ β)
  | [], a => return .inl a
  | n :: rest, a => do
    match ← item? e r n with
    | none => walkItems e r act rest a
    | some v =>
      match ← act a n v with
      | .inl a => walkItems e r act rest a
      | .inr b => return .inr b

/-- Moves items to other indices, and with them the gaps between them. -/
def moveItems (e : Engine) (r : Ref) (backward : Bool) (source target count : Nat) : Run Unit := do
  let steps ← indicesBelow count
  for n in (if backward then steps.reverse else steps) do
    match ← item? e r (source + n) with
    | some v => putItem e r (target + n) v
    | none => dropItem e r (target + n)

/-- A list of the items from an index on, with the gaps between them. -/
def copyItems (e : Engine) (r : Ref) (start count : Nat) : Run Ref := do
  let copy ← newObject .list (.list #[] count true)
  for n in (← indicesBelow count) do
    match ← item? e r (start + n) with
    | some v => create copy (.index n) v
    | none => pure ()
  return copy

/-- Two sorted series as one; `before` says whether the second value stands before the first. -/
def mergeRuns {α : Type} (before : α → α → Run Bool) : Nat → List α → List α → Run (List α)
  | 0, a, b => return a ++ b
  | _, [], b => return b
  | _, a, [] => return a
  | fuel + 1, x :: a, y :: b => do
    if ← before x y then return y :: (← mergeRuns before fuel (x :: a) b)
    else return x :: (← mergeRuns before fuel a (y :: b))

def sortRuns {α : Type} (before : α → α → Run Bool) : Nat → List α → Run (List α)
  | 0, vs => return vs
  | fuel + 1, vs => do
    if vs.length < 2 then return vs
    let half := vs.length / 2
    let a ← sortRuns before fuel (vs.take half)
    let b ← sortRuns before fuel (vs.drop half)
    mergeRuns before vs.length a b

/-- Whether the second value is to stand before the first, by a function or by their texts. -/
def sortsBefore (e : Engine) (f : Value) (a b : Value) : Run Bool := do
  if f == .undefined then return (← toText e b).lt (← toText e a)
  else return Double.lt .zero (← toNumber e (← e.call f .undefined [a, b]))

/-- Sorts the items of an object: the defined ones, the undefined ones behind them, and last the gaps. An item
that is in its place is not written again. -/
def sortItems (e : Engine) (f : Value) (r : Ref) : Run Unit := do
  let length ← lengthOf e r
  let present ← (← indicesBelow length).filterMapM fun n => return (← item? e r n).map fun v => (v, n)
  let (missing, defined) := present.partition fun (v, _) => v == .undefined
  let sorted ← sortRuns (fun a b => sortsBefore e f a.1 b.1) defined.length defined
  for ((v, old), n) in sorted.zipIdx do
    if old != n then putItem e r n v
  for n in List.range missing.length do
    putItem e r (sorted.length + n) .undefined
  for n in (List.range length).drop present.length do
    dropItem e r n

def reverseItems (e : Engine) (r : Ref) : Run Unit := do
  let length ← lengthOf e r
  for low in (← indicesBelow (length / 2)) do
    let high := length - 1 - low
    let first ← item? e r low
    let last ← item? e r high
    match last with
    | some v => putItem e r low v
    | none => if first.isSome then dropItem e r low
    match first with
    | some v => putItem e r high v
    | none => if last.isSome then dropItem e r high

def flatLimit : Nat := 1000

/-- The items of an object, with those of lists within it in their place, to some depth. -/
def flatten (e : Engine) : Nat → Nat → Ref → Run (List Value)
  | 0, _, _ => throwNested
  | fuel + 1, depth, r => do
    let parts ← (← indicesBelow (← lengthOf e r)).mapM fun n => do
      match ← item? e r n with
      | none => return []
      | some v =>
        match depth, v with
        | depth + 1, .object inner =>
          if ← isListValue v then flatten e fuel depth inner else return [v]
        | _, v => return [v]
    return parts.flatten

def isSpread (e : Engine) (v : Value) : Run Bool := do
  match v with
  | .object r =>
    match ← getProperty e r (.symbol symbolSpread) with
    | .undefined => isListValue v
    | told => return told.truthy
  | _ => return false

/-- Puts values behind one another, and of one that is spread its items; the answer says where they end. -/
def appendAll (e : Engine) (target : Ref) : List Value → Nat → Run Nat
  | [], place => return place
  | v :: rest, place => do
    match ← isSpread e v, v with
    | true, .object r =>
      let length ← lengthOf e r
      for n in (← indicesBelow length) do
        match ← item? e r n with
        | some v => create target (.index (place + n)) v
        | none => pure ()
      appendAll e target rest (place + length)
    | _, v =>
      create target (.index place) v
      appendAll e target rest (place + 1)

/-- The texts of items with a text between them. -/
def joinItems (e : Engine) (r : Ref) (separator : CodeUnits) : List Nat → Run CodeUnits
  | [] => return default
  | n :: rest => do
    let v ← getProperty e r (.index n)
    let first ← if v.isNullish then pure default else toText e v
    if rest.isEmpty then return first
    else return first ++ separator ++ (← joinItems e r separator rest)

def findItem (i : Invocation) (f : Value) (r : Ref) : List Nat → Run (Option (Nat × Value))
  | [] => return none
  | n :: rest => do
    let v ← getProperty i.engine r (.index n)
    if (← i.apply f (i.arg 1) [v, .ofNat n, .object r]).truthy then return some (n, v)
    else findItem i f r rest

def indexFound (found : Option Nat) : Value := .ofInt ((found.map Int.ofNat).getD (-1))

/-- The first of some indices under which a value stands. -/
def indexOfItem (e : Engine) (r : Ref) (v : Value) (indices : List Nat) : Run Value := do
  match ← walkItems e r (fun _ n w => return if w.strictEq v then .inr n else .inl ()) indices () with
  | .inr n => return indexFound (some n)
  | .inl _ => return indexFound none

/-- How many indices stand at a position and before it; one that is negative counts from the end. -/
def reachOf (d : Double) (length : Nat) : Nat :=
  if Double.lt d .zero then length + 1 - clampIndex d.neg (length + 1) else min (clampIndex d length + 1) length

/-- Whether a function answers so for an item. -/
def anyItem (i : Invocation) (f : Value) (r : Ref) (wanted : Bool) (indices : List Nat) : Run Bool := do
  let asks (_ : Unit) (n : Nat) (v : Value) : Run (Unit ⊕ Unit) := do
    return if (← i.apply f (i.arg 1) [v, .ofNat n, .object r]).truthy == wanted then .inr () else .inl ()
  return (← walkItems i.engine r asks indices ()).isRight

def foldItems (i : Invocation) (f : Value) (r : Ref) (indices : List Nat) : Run Value := do
  let step (acc : Option Value) (n : Nat) (v : Value) : Run (Option Value ⊕ Unit) := do
    match acc with
    | none => return .inl (some v)
    | some acc => return .inl (some (← i.apply f .undefined [acc, v, .ofNat n, .object r]))
  match ← walkItems i.engine r step indices i.args[1]? with
  | .inl (some acc) => return acc
  | _ => throwType "empty array"

/-- The items that a list is made from: those of an iterator, or those that an array-like object
tells. -/
def sourceItems (e : Engine) (v : Value) : Run (List Value) := do
  match ← method? e v (.symbol symbolIterator) with
  | some _ => itemsOf e v
  | none => itemsOfObject e (← toObject v)

/-- What a function makes of the items of a value; it is called for each before the next one is asked for. -/
def sourceMapped (e : Engine) (v : Value) (act : Nat → Value → Run Value) : Run (List Value) := do
  match ← method? e v (.symbol symbolIterator) with
  | none =>
    let r ← toObject v
    (← indicesBelow (← lengthOf e r)).mapM fun n => do act n (← getProperty e r (.index n))
  | some _ =>
    let it ← iteratorOf e v
    let all ← repeatRun (fun (made : Array Value) => do
      match ← it.step? e with
      | none => return .inr made
      | some v =>
        let w ← orElse (act made.size v) fun thrown => do
          orElse (it.close e) fun _ => pure ()
          throw thrown
        return .inl (made.push w)) loopLimit #[]
    return all.toList

def listFrom (i : Invocation) : Run Value := do
  let e := i.engine
  let f := i.arg 1
  if f == .undefined then listValue (← sourceItems e (i.arg 0))
  else
    if !(← isCallable f) then throwType "not a function"
    listValue (← sourceMapped e (i.arg 0) fun n v => i.apply f (i.arg 2) [v, .ofNat n])

def makeList (i : Invocation) : Run Value := do
  match i.args with
  | [.number d] =>
    match d.toInt? with
    | some n =>
      if 0 ≤ n && n < 4294967296 then i.make .list (.list #[] n.toNat true)
      else throwRange "invalid array length"
    | none => throwRange "invalid array length"
  | args =>
    let all := (args.map fun v => some (Property.plain v)).toArray
    i.make .list (.list all all.size true)

def pushItems (i : Invocation) (r : Ref) : Run Value := do
  let e := i.engine
  match ← object r with
  | ⟨_, true, _, .list items length true, _⟩ =>
    if length == items.size then
      claimBytes (16 * (length + i.args.length))
      modifyObject r fun o =>
        match o with
        | ⟨proto, extensible, props, .list items length resizable, secrets⟩ =>
          ⟨proto, extensible, props, .list
            (i.args.foldl (fun items v => items.push (some (.plain v))) items)
            (length + i.args.length) resizable, secrets⟩
        | o => o
      return .ofNat (length + i.args.length)
    else
      for (v, n) in i.args.zipIdx length do
        create r (.index n) v
      return .ofNat (length + i.args.length)
  | _ =>
    let length ← lengthOf e r
    for (v, n) in i.args.zipIdx length do
      putValue e true (.object r) (.ofUnits (.ofNat n)) v
    putValue e true (.object r) (.named "length") (.ofNat (length + i.args.length))
    return .ofNat (length + i.args.length)

def spliceItems (i : Invocation) (r : Ref) : Run Value := do
  let e := i.engine
  let length ← lengthOf e r
  let start ← positionOf i 0 length 0
  let count ← match i.args with
    | [] => pure 0
    | [_] => pure (length - start)
    | _ :: v :: _ => do pure (clampIndex (← toInteger e v) (length - start))
  let added := i.args.drop 2
  let removed ← copyItems e r start count
  let total := length + added.length - count
  if added.length != count then
    moveItems e r (count < added.length) (start + count) (start + added.length) (length - (start + count))
    for n in ((List.range length).drop total).reverse do
      dropItem e r n
  for (v, n) in added.zipIdx start do
    putItem e r n v
  tellLength e r total
  return .object removed

def listIterator (i : Invocation) (projection : Projection) : Run Value :=
  return .object (← newObject .listIterator (.walk (.list (.object (← toObject i.this))) projection 0))

def ListFn.run (f : ListFn) (i : Invocation) : Run Value := do
  let e := i.engine
  match f with
  | make => makeList i
  | isArray => return .bool (← isListValue (i.arg 0))
  | of_ => listValue i.args
  | from_ => listFrom i
  | keys => listIterator i .keys
  | values => listIterator i .values
  | entries => listIterator i .entries
  | push => pushItems i (← toObject i.this)
  | f =>
    let r ← toObject i.this
    match f with
    | pop =>
      let length ← lengthOf e r
      if length == 0 then
        tellLength e r 0
        return .undefined
      let last ← getProperty e r (.index (length - 1))
      dropItem e r (length - 1)
      tellLength e r (length - 1)
      return last
    | shift =>
      let length ← lengthOf e r
      if length == 0 then
        tellLength e r 0
        return .undefined
      let first ← getProperty e r (.index 0)
      moveItems e r false 1 0 (length - 1)
      dropItem e r (length - 1)
      tellLength e r (length - 1)
      return first
    | unshift =>
      let length ← lengthOf e r
      if !i.args.isEmpty then moveItems e r true 0 i.args.length length
      for (v, n) in i.args.zipIdx do
        putItem e r n v
      tellLength e r (length + i.args.length)
      return .ofNat (length + i.args.length)
    | slice =>
      let length ← lengthOf e r
      let start ← positionOf i 0 length 0
      let stop ← positionOf i 1 length length
      return .object (← copyItems e r start (stop - start))
    | splice => spliceItems i r
    | concat =>
      let all ← newObject .list (.list #[] 0 true)
      tellLength e all (← appendAll e all (.object r :: i.args) 0)
      return .object all
    | join =>
      let length ← lengthOf e r
      let separator ← match i.arg 0 with
        | .undefined => pure (CodeUnits.ofString ",")
        | v => toText e v
      claimText (← joinItems e r separator (← indicesBelow length))
    | toString =>
      let f ← getNamed e r "join"
      if ← isCallable f then i.apply f (.object r) [] else defaultText e (.object r)
    | reverse =>
      reverseItems e r
      return .object r
    | indexOf =>
      let length ← lengthOf e r
      let start ← positionOf i 1 length 0
      indexOfItem e r (i.arg 0) ((← indicesBelow length).drop start)
    | lastIndexOf =>
      let length ← lengthOf e r
      let count ← match i.args with
        | _ :: v :: _ => do pure (reachOf (← toInteger e v) length)
        | _ => pure length
      indexOfItem e r (i.arg 0) (← indicesBelow count).reverse
    | includes =>
      let length ← lengthOf e r
      let start ← positionOf i 1 length 0
      return .bool (← ((← indicesBelow length).drop start).anyM fun n => do
        return (i.arg 0).sameZero (← getProperty e r (.index n)))
    | sort =>
      if i.arg 0 != .undefined && !(← isCallable (i.arg 0)) then throwType "not a function"
      sortItems e (i.arg 0) r
      return .object r
    | fill =>
      let length ← lengthOf e r
      let start ← positionOf i 1 length 0
      let stop ← positionOf i 2 length length
      for n in (← indicesBelow (stop - start)) do
        putItem e r (start + n) (i.arg 0)
      return .object r
    | flat =>
      let depth ← match i.arg 0 with
        | .undefined => pure 1
        | v => do pure (clampIndex (← toInteger e v) flatLimit)
      flatten e flatLimit depth r >>= listValue
    | copyWithin =>
      let length ← lengthOf e r
      let target ← positionOf i 0 length 0
      let start ← positionOf i 1 length 0
      let stop ← positionOf i 2 length length
      let count := min (stop - start) (length - target)
      moveItems e r (start < target && target < start + count) start target count
      return .object r
    | at_ =>
      let length ← lengthOf e r
      match placeOf? (← toInteger e (i.arg 0)) length with
      | .some n => getProperty e r (.index n)
      | none => return .undefined
    | f =>
      let indices ← indicesBelow (← lengthOf e r)
      let act ← i.function 0
      let ask (n : Nat) (v : Value) : Run Value := i.apply act (i.arg 1) [v, .ofNat n, .object r]
      match f with
      | find => return ((← findItem i act r indices).map Prod.snd).getD .undefined
      | findIndex => return indexFound ((← findItem i act r indices).map Prod.fst)
      | findLast => return ((← findItem i act r indices.reverse).map Prod.snd).getD .undefined
      | findLastIndex => return indexFound ((← findItem i act r indices.reverse).map Prod.fst)
      | some => return .bool (← anyItem i act r true indices)
      | every => return .bool !(← anyItem i act r false indices)
      | reduce => foldItems i act r indices
      | reduceRight => foldItems i act r indices.reverse
      | map =>
        let result ← newObject .list (.list #[] indices.length true)
        for n in indices do
          match ← item? e r n with
          | .some v => create result (.index n) (← ask n v)
          | none => pure ()
        return .object result
      | filter =>
        let kept ← indices.filterMapM fun n => do
          match ← item? e r n with
          | .some v => return if (← ask n v).truthy then .some v else none
          | none => return none
        listValue kept
      | flatMap =>
        let parts ← indices.mapM fun n => do
          match ← item? e r n with
          | none => return []
          | .some v =>
            match ← ask n v with
            | .object inner =>
              if ← isListValue (.object inner) then flatten e flatLimit 0 inner else return [.object inner]
            | v => return [v]
        listValue parts.flatten
      | _ =>
        for n in indices do
          match ← item? e r n with
          | .some v =>
            let _ ← ask n v
          | none => pure ()
        return .undefined

end Patchbay.Script
