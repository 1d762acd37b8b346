import Patchbay.Script.Lift
/-!
What is told of a failure of the engine: for an error object its name, message and traceback, and for
any other thrown value its text.
-/
namespace Patchbay.Script

open Text

inductive Fault
  | thrown (v : Value)
  | nulInSource (index : Nat)
  /-- A text has a surrogate without its partner at a byte. -/
  | loneSurrogate (index : Nat)
  | unbuilt
  deriving DecidableEq, Inhabited, Repr

def quietly {α : Type} (body : Run α) : Run (Option α) :=
  orElse (some <$> body) fun _ => return none

def coercedProperty (e : Engine) (r : Ref) (name : String) : Run (Option String) := do
  let text ← quietly do
    let v ← getNamed e r name
    if v.isNullish then return none else return (← toText e v).toString?.toOption
  return text.join

def errorName (e : Engine) (r : Ref) : Run String := do
  match ← quietly (getNamed e r "name") with
  | some (.string s) => return s.toString?.toOption.getD ""
  | _ => return ""

def headline (name message : String) : String :=
  if name.isEmpty then message else if message.isEmpty then name else name ++ ": " ++ message

def unprintable : String := "<unprintable exception>"

def describeThrown (e : Engine) (v : Value) : Run (String × Option String) := do
  let isError ← match v with
    | .object r => do pure ((← payload r) matches .error)
    | _ => pure false
  match v, isError with
  | .object r, true =>
    let message := (← coercedProperty e r "message").getD ""
    let name ← errorName e r
    return (headline name message, ← coercedProperty e r "stack")
  | v, _ =>
    let text ← quietly (toText e v)
    return ((text.bind fun s => s.toString?.toOption).getD unprintable, none)

def describeFault (e : Engine) (f : Fault) : Run (String × Option String) := do
  match f with
  | .thrown v => describeThrown e v
  | .nulInSource index =>
    return ("String contained internal null bytes: nul byte found in provided data at position: " ++
      toString index, none)
  | .loneSurrogate index => return (conversionFault index, none)
  | .unbuilt => return ("Error converting from js 'module' into type 'object'", none)

end Patchbay.Script
