import Patchbay.Script.Evaluate.Statement
import Patchbay.Script.Parser.Statement
/-!
Running whole scripts. A script first declares its global names, all of which must be free, and then
runs; its value is that of the last expression statement reached.
-/
namespace Patchbay.Script

open Text

def isLexicalGlobal (n : Name) : Run Bool :=
  return ((← get).scopes[0]?).any fun s => (s.names.lookup n).isSome

def throwRedeclared {α : Type} (n : Name) : Run α :=
  throwNew .syntaxFault ("redeclaration of '" ++ shown n ++ "'")

def checkLexical (n : Name) : Run Unit := do
  let taken := ((← get).ownProperty? Proto.global.ref (.ofUnits n)).any fun p => !p.configurable
  if taken || (← isLexicalGlobal n) then throwRedeclared n

/-- Refuses a variable whose name is a lexical one, or that the global object cannot take. -/
def checkVariable (n : Name) : Run Unit := do
  let o ← object Proto.global.ref
  if !o.extensible && (o.lookup? (.ofUnits n)).isNone then
    throwType ("cannot define variable '" ++ shown n ++ "'")
  if ← isLexicalGlobal n then throwRedeclared n

def checkFunction (n : Name) : Run Unit := do
  match (← get).ownProperty? Proto.global.ref (.ofUnits n) with
  | some ⟨.accessor .., _, false⟩ | some ⟨.data _ false, _, false⟩ | some ⟨.data .., false, false⟩ =>
    throwType ("cannot define variable '" ++ shown n ++ "'")
  | _ => pure ()
  checkVariable n

/-- Makes a global variable, unless there is one. -/
def defineVariable (n : Name) : Run Unit := do
  let k := Key.ofUnits n
  if ((← get).ownProperty? Proto.global.ref k).isNone then
    store Proto.global.ref k ⟨.data .undefined true, true, false⟩

def defineFunction (f : Function) : Run Unit := do
  let k := Key.ofUnits f.signature.name
  let r ← makeFunction 0 f none
  match (← get).ownProperty? Proto.global.ref k with
  | some ⟨_, enumerable, false⟩ =>
    store Proto.global.ref k ⟨.data (.object r) true, enumerable, false⟩
  | _ => store Proto.global.ref k ⟨.data (.object r) true, true, false⟩

def declareGlobals (p : Program) : Run Unit := do
  let lexical := lexicalNames p.body
  let functions := declaredFunctions p.body
  functions.forM fun f => checkFunction f.signature.name
  p.vars.forM checkVariable
  lexical.forM fun entry => checkLexical entry.1
  lexical.forM fun entry => bindIn 0 entry.1 entry.2
  p.vars.forM defineVariable
  functions.forM defineFunction

def scriptFrame : Frame := ⟨.ofString "<eval>", false, ⟨1, 0⟩⟩

def runProgram (e : Engine) (p : Program) : Run Value :=
  withFrame scriptFrame do
    declareGlobals p
    let kept := (← get).completion
    modify fun m => { m with completion := .undefined }
    let _ ← executeAll e ⟨0, p.strict, true⟩ p.body
    let value := (← get).completion
    modify fun m => { m with completion := kept }
    return value

def throwComplaint {α : Type} (c : Complaint) : Run α := do
  let frames := (← get).frames
  match c with
  | .wrong message place =>
    let line := "    at eval_script:" ++ toString place.line ++ ":" ++ toString place.column ++ "\n"
    let trace := CodeUnits.ofString line ++ backtrace frames
    throw (.object (← newError .syntaxFault (.ofString (boundedMessage message)) trace))
  | .tooDeep => throwNew .internal "stack overflow"

def nestingLimit : Nat := 1000

def runSource (e : Engine) (s : Source) (strict : Bool) : Run Value := do
  match Parser.parse nestingLimit s strict with
  | .ok p => runProgram e p
  | .error c => throwComplaint c

end Patchbay.Script
