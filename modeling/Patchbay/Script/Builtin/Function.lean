import Patchbay.Script.Builtin.Object
/-!
Functions on functions, the makers of errors, and the functions that post messages to the host.
-/
namespace Patchbay.Script

open Text

def FunctionFn.methods : List (String × Nat × FunctionFn) :=
  [("call", 1, call), ("apply", 2, apply), ("bind", 1, bind), ("toString", 0, toString)]

/-- The text of a function: as it was written, or a sign that it is built in. -/
def functionText (e : Engine) (r : Ref) : Run CodeUnits := do
  match ← payload r with
  | .closure cl => return cl.tree.signature.source
  | _ =>
    let name ← toText e (← getNamed e r "name")
    return .ofString "function " ++ name ++ .ofString "() \x7b\n    [native code]\n\x7d"

def bindFunction (e : Engine) (f : Ref) (this : Value) (args : List Value) : Run Value := do
  let name ← match ← getNamed e f "name" with
    | .string s => pure s
    | _ => pure default
  let length ← toLength e (← getNamed e f "length")
  let r ← allocate { proto := (← object f).proto, payload := .bound (.object f) this args }
  modifyObject r fun o =>
    (o.insert (.named "length") (.constant (.ofNat (length - args.length)))).insert (.named "name")
      (.constant (.string (.ofString "bound " ++ name)))
  return .object r

def functionOfTexts (e : Engine) (texts : List CodeUnits) : Run Value := do
  let params := (texts.dropLast.map CodeUnits.lossy)
  let body := ((texts.getLast?).map CodeUnits.lossy).getD ""
  let text := "(function anonymous(" ++ String.intercalate "," params ++ "\n) \x7b\n" ++ body ++ "\n\x7d)"
  runSource e (Source.ofBytes (Utf8.ofString text)) false

def FunctionFn.run (f : FunctionFn) (i : Invocation) : Run Value := do
  let e := i.engine
  match f with
  | make => functionOfTexts e (← i.args.mapM (toText e))
  | itself => return .undefined
  | call => i.apply i.this (i.arg 0) (i.args.drop 1)
  | apply =>
    let args ← match i.arg 1 with
      | .undefined | .null => pure []
      | v => itemsOfObject e (← requireObject v)
    i.apply i.this (i.arg 0) args
  | bind =>
    if ← isCallable i.this then
      match i.this with
      | .object r => bindFunction e r (i.arg 0) (i.args.drop 1)
      | _ => throwType "not a function"
    else throwType "not a function"
  | toString =>
    match i.this with
    | .object r =>
      if ← isCallable i.this then return .string (← functionText e r) else throwType "not a function"
    | _ => throwType "not a function"
  | hasInstance =>
    if ← isCallable i.this then return .bool (← ordinaryInstance e (i.arg 0) i.this)
    else return .bool false

def ErrorFn.methods : List (String × Nat × ErrorFn) := [("toString", 0, toString)]

def makeError (kind : ErrorKind) (i : Invocation) : Run Value := do
  let e := i.engine
  let r ← allocate { proto := some (← i.proto (.ofError kind)), payload := .error }
  let (message, options) := if kind == .aggregate then (i.arg 1, i.arg 2) else (i.arg 0, i.arg 1)
  if message != .undefined then
    let text ← toText e message
    modifyObject r fun o => o.insert (.named "message") (.hidden (.string text))
  match options with
  | .object o =>
    if ← hasProperty e o (.named "cause") then
      let cause ← getNamed e o "cause"
      modifyObject r fun o => o.insert (.named "cause") (.hidden cause)
  | _ => pure ()
  if kind == .aggregate then
    let errors ← newList (← itemsOf e (i.arg 0))
    modifyObject r fun o => o.insert (.named "errors") (.hidden (.object errors))
  let trace := backtrace ((← get).frames.drop 1)
  modifyObject r fun o => o.insert (.named "stack") (.hidden (.string trace))
  return .object r

def errorText (e : Engine) (r : Ref) : Run CodeUnits := do
  let name ← match ← getNamed e r "name" with
    | .undefined => pure (CodeUnits.ofString "Error")
    | v => toText e v
  let message ← match ← getNamed e r "message" with
    | .undefined => pure default
    | v => toText e v
  if name.isEmpty then return message
  else if message.isEmpty then return name
  else return name ++ .ofString ": " ++ message

def ErrorFn.run (f : ErrorFn) (i : Invocation) : Run Value := do
  match f with
  | make kind => makeError kind i
  | toString => return .string (← errorText i.engine (← requireObject i.this))

def conversionFault (index : Nat) : String :=
  "Conversion from string failed: invalid utf-8 sequence of 1 bytes from index " ++ toString index

def HostFn.run (f : HostFn) (i : Invocation) : Run Value := do
  match i.args with
  | [] => throwType "Error calling function with 0 argument(s) while 1 where expected"
  | v :: _ =>
    let text ← toText i.engine v
    match text.toString? with
    | .ok s =>
      modify fun m => { m with posts := ⟨f == .error, s⟩ :: m.posts }
      return .undefined
    | .error index => throwType (conversionFault index)

end Patchbay.Script
