import Patchbay.Script.Evaluate.Variable
/-!
Walking over the items of a value by its iterator.
-/
namespace Patchbay.Script

def loopLimit : Nat := 1000000000

def repeatRun {α β : Type} (step : α → Run (α ⊕ β)) : Nat → α → Run β
  | 0, _ => throwNew .internal "interrupted"
  | fuel + 1, a => do
    match ← step a with
    | .inl a => repeatRun step fuel a
    | .inr b => return b

/-- An iterator of a value and its way to the next item. -/
structure Iterator where
  object : Value
  next : Value

def iteratorOf (e : Engine) (v : Value) : Run Iterator := do
  let f ← getValue e v (.symbol symbolIterator)
  if ← isCallable f then
    let it ← e.call f v []
    if it.isObject then return ⟨it, ← getValue e it (.named "next")⟩ else throwType "not an object"
  else throwType "value is not iterable"

def Iterator.step? (e : Engine) (it : Iterator) : Run (Option Value) := do
  let answer ← e.call it.next it.object []
  if !answer.isObject then throwType "iterator must return an object"
  if (← getValue e answer (.named "done")).truthy then return none
  else return some (← getValue e answer (.named "value"))

def Iterator.close (e : Engine) (it : Iterator) : Run Unit := do
  let f ← getValue e it.object (.named "return")
  if !f.isNullish then
    let _ ← e.call f it.object []

def itemsOf (e : Engine) (v : Value) : Run (List Value) := do
  let it ← iteratorOf e v
  let all ← repeatRun (fun (items : Array Value) => do
    match ← it.step? e with
    | some item =>
      claimBytes (16 * items.size)
      return .inl (items.push item)
    | none => return .inr items) loopLimit #[]
  return all.toList

end Patchbay.Script
