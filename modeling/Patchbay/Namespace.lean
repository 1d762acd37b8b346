import Patchbay.Files.Search
import Patchbay.Log
import Patchbay.Module
/-!
A namespace: the scope of one owner in the engine. What is asked of it either succeeds or is reported
in a diagnostic, and in both cases the namespace goes on from the state that the engine left.
-/
namespace Patchbay

open Script Text

structure Namespace where
  identity : Identity
  machine : Machine

/-- What a namespace made of something that was asked of it. -/
structure Answer (α : Type) where
  outcome : Except Diagnostic α
  after : Namespace
  log : List Log.Entry

namespace Namespace

/-- A new namespace; nothing is defined in it but the names of the language and the host. -/
def fresh (identity : Identity) (memoryLimit : Option Nat) : Namespace :=
  ⟨identity, { Machine.initial with memoryLimit := memoryLimit }⟩

def refuse {α : Type} (n : Namespace) (operation subject message : String) : Answer α :=
  ⟨.error (.make n.identity operation subject message), n, []⟩

def drain (n : Namespace) : List Log.Entry × Namespace :=
  (n.machine.posts.reverse.map fun p => .posted n.identity p.isError p.text,
    { n with machine := { n.machine with posts := [] } })

/-- A computation of the engine with its result, a thrown value being a fault too. -/
def settle {α : Type} (body : ExceptT Fault Run α) (m : Machine) : Except Fault α × Machine :=
  match body.run.run m with
  | .ok result m => (result, m)
  | .error v m => (.error (.thrown v), m)

def describe (f : Fault) (m : Machine) : (String × Option String) × Machine :=
  match (describeFault mainEngine f).run m with
  | .ok text m => (text, m)
  | .error _ m => ((unprintable, none), m)

def attempt {α : Type} (n : Namespace) (operation subject : String) (body : ExceptT Fault Run α) :
    Answer α :=
  match settle body n.machine with
  | (.ok a, m) =>
    let (log, after) := drain { n with machine := m }
    ⟨.ok a, after, log⟩
  | (.error f, m) =>
    let ((message, traceback), m) := describe f m
    let (log, after) := drain { n with machine := m }
    ⟨.error (.make n.identity operation subject message traceback), after, log⟩

def runBytes (bytes : Utf8.Bytes) (strict : Bool) : ExceptT Fault Run Value := do
  match bytes.findIdx? (· == 0) with
  | some index => throwThe Fault (.nulInSource index)
  | none => runSource mainEngine (Source.ofBytes bytes) strict

def liftBytes (bytes : Utf8.Bytes) : ExceptT Fault Run Lifted := do
  let v ← runBytes bytes true
  match ← (lift mainEngine v).run with
  | .ok lifted => return lifted
  | .error index => throwThe Fault (.loneSurrogate index)

def missingSource : String := "missing source text"

/-- The expression within parentheses of its own, so that a statement is none. -/
def parenthesized (source : String) : Utf8.Bytes := Utf8.ofString ("(\n" ++ source ++ "\n)")

/-- The value of an expression as a reply; one that no reply can carry gives none. -/
def evaluate (n : Namespace) (source : String) : Answer (Option Reply) :=
  if isAllBlank source.toList then n.refuse "eval" source missingSource
  else
    let answer := n.attempt "eval" source (liftBytes (parenthesized source))
    match answer.outcome with
    | .ok lifted =>
      ⟨.ok lifted.encode?, answer.after,
        answer.log ++ lifted.longLength?.toList.map Log.Entry.longList⟩
    | .error d => ⟨.error d, answer.after, answer.log⟩

def runStatements (n : Namespace) (operation subject : String) (bytes : Utf8.Bytes) : Answer Unit :=
  if bytes.all isBlankByte then n.refuse operation subject missingSource
  else n.attempt operation subject do
    let _ ← runBytes bytes false

def execute (n : Namespace) (source : String) : Answer Unit :=
  n.runStatements "exec" source (Utf8.ofString source)

def executeBuffer (n : Namespace) (name source : String) : Answer Unit :=
  n.runStatements "edsave" name (Utf8.ofString source)

def executeFile (n : Namespace) (files : Files.Tree) (path : String) : Answer Unit :=
  if path.isEmpty then n.refuse "execfile" path "missing filepath"
  else
    match Files.readText files path with
    | .ok bytes => n.runStatements "execfile" path bytes
    | .error e => n.refuse "execfile" path e.message

def bindGlobal (name : String) (r : Ref) : Run Unit := do
  let k := Key.ofUnits (.ofString name)
  checkAssigned true k (← putProperty mainEngine Proto.global.ref k (.object r))

def importModule (n : Namespace) (modules : ModuleTable) (name : String) : Answer Unit :=
  if isAllBlank name.toList then n.refuse "import" name missingSource
  else n.attempt "import" name do
    match modules.get? name with
    | some m => bindGlobal name (← m.build n.identity)
    | none => throwReference ("no module named '" ++ name ++ "'")

def liftScript (n : Namespace) (source : String) : Answer Lifted :=
  n.attempt "lift" source (liftBytes (Utf8.ofString source))

end Namespace

end Patchbay
