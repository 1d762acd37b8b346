import Patchbay.Script.Builtin.Object
/-!
Promises, whose later work never runs here, patterns for texts as mere values, collections that show
nothing of what they hold, and the function that runs a text as a script.
-/
namespace Patchbay.Script

open Text

def PromiseFn.statics : List (String × Nat × PromiseFn) := [("resolve", 1, resolve), ("reject", 1, reject)]

def PromiseFn.methods : List (String × Nat × PromiseFn) :=
  [("then", 2, then_), ("catch", 1, catch_), ("finally", 1, finally_)]

def isPromise (v : Value) : Run Bool := do
  match v with
  | .object r => return ((← payload r) matches .promise)
  | _ => return false

def newPromise : Run Value := return .object (← newObject .promise .promise)

def PromiseFn.run (f : PromiseFn) (i : Invocation) : Run Value := do
  match f with
  | make =>
    i.requireNew
    let f ← i.function 0
    let p ← i.make .promise .promise
    let settle ← newObject .function (.native (.promise .settle))
    orElse (do let _ ← i.apply f .undefined [.object settle, .object settle]) fun _ => pure ()
    return p
  | resolve => if ← isPromise (i.arg 0) then return i.arg 0 else newPromise
  | reject => newPromise
  | settle => return .undefined
  | _ => if ← isPromise i.this then newPromise else throwType "not a promise"

def regexpText (e : Engine) (r : Ref) : Run Value := do
  match ← payload r with
  | .regexp source flags => return .string (.ofString "/" ++ source ++ .ofString "/" ++ flags)
  | _ =>
    let source ← toText e (← getNamed e r "source")
    return .string (.ofString "/" ++ source ++ .ofString "/" ++ (← toText e (← getNamed e r "flags")))

def makeRegexp (i : Invocation) : Run Value := do
  let text (v : Value) : Run CodeUnits := if v == .undefined then pure default else toText i.engine v
  let copied : Option (CodeUnits × CodeUnits) ← match i.arg 0 with
    | .object r =>
      match ← payload r with
      | .regexp source flags => pure (some (source, flags))
      | _ => pure none
    | _ => pure none
  let source ← match copied with
    | some (source, _) => pure source
    | none => text (i.arg 0)
  let flags ← match copied with
    | some (_, flags) => if i.arg 1 == .undefined then pure flags else text (i.arg 1)
    | none => text (i.arg 1)
  match Regexp.fault? source flags with
  | some message => throwNew .syntaxFault message
  | none => return .object (← allocate (regexpObject (← i.proto .regexp) source flags))

def MiscFn.run (f : MiscFn) (i : Invocation) : Run Value := do
  let e := i.engine
  match f with
  | regexp => makeRegexp i
  | regexpToString => regexpText e (← requireObject i.this)
  | weakSet =>
    i.requireNew
    i.make .weakSet .plain
  | weakMap =>
    i.requireNew
    i.make .weakMap .plain
  | eval =>
    match i.arg 0 with
    | .string s => runSource e (Source.ofBytes (Utf8.ofString s.lossy)) false
    | v => return v

end Patchbay.Script
