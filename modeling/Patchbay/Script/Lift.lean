import Patchbay.Lifted
import Patchbay.Script.Engine
/-!
Values on their way out of the engine. The first rule that matches decides: truth values, numbers, big
integers and texts are scalars; lists, sets and typed arrays are collections of scalars; all else is
bare. Big integers and collections are taken apart by small scripts of their own, which see the global
names as the scripts before them left them.
-/
namespace Patchbay.Script

open Text

/-- A lift. Besides throwing, it may meet a text that is no plain text, at some byte. -/
abbrev LiftRun := ExceptT Nat Run

def plainText (s : CodeUnits) : LiftRun String :=
  match s.toString? with
  | .ok text => return text
  | .error index => throwThe Nat index

def flattener : String := "(v) => (v instanceof Set || ArrayBuffer.isView(v)) ? Array.from(v) : undefined"

/-- Turns a big integer into its decimal text when sixty-four bits hold it, and else into the nearest
number. -/
def narrower : String := "(v) => BigInt.asIntN(64, v) === v ? String(v) : Number(v)"

def applyScript (e : Engine) (text : String) (v : Value) : Run Value := do
  let f ← runSource e (Source.ofBytes (Utf8.ofString text)) true
  e.call f .undefined [v]

def liftBig (e : Engine) (v : Value) : LiftRun (Option Lifted) := do
  match ← applyScript e narrower v with
  | .string s => return (Decimal.integer? (← plainText s).toList).map .int
  | .number d => return some (.float d)
  | _ => return none

def liftScalar (e : Engine) (v : Value) : LiftRun (Option Lifted) := do
  match v with
  | .bool b => return some (.bool b)
  | .number d => return some (.ofNumber d)
  | .bigint _ => liftBig e v
  | .string s => return some (.text (← plainText s))
  | _ => return none

def bareKind (v : Value) : Run Bare := do
  match v with
  | .undefined => return .undefined
  | .null => return .null
  | .symbol _ => return .symbol
  | .bigint _ => return .bigint
  | v => return if ← isCallable v then .function else .object

def collectionList? (e : Engine) (v : Value) : Run (Option Ref) := do
  if ← isListValue v then return v.ref?
  else if v.isObject then
    let items ← applyScript e flattener v
    if ← isListValue items then return items.ref? else return none
  else return none

/-- An item of a collection. A list within a list is lifted without its items. -/
def liftItem (e : Engine) (v : Value) : LiftRun Lifted := do
  match ← liftScalar e v with
  | some lifted => return lifted
  | none => if ← isListValue v then return .collection [] else return .bare (← bareKind v)

def lift (e : Engine) (v : Value) : LiftRun Lifted := do
  match ← liftScalar e v with
  | some lifted => return lifted
  | none =>
    match ← collectionList? e v with
    | none => return .bare (← bareKind v)
    | some r =>
      let length ← lengthOf e r
      let items ← (List.range length).mapM fun n => do
        liftItem e (← getProperty e r (.index n))
      return .collection items

end Patchbay.Script
