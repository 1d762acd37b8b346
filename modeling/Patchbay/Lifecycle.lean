import Patchbay.Namespace
import Patchbay.Settings
/-!
The life of the interpreter. It starts with the first reference that is taken on it and ends for good
with the last one that is given back. A refused namespace still uses up an identity, and a refused
start still puts the module of the host into the table.
-/
namespace Patchbay

inductive InterpreterState
  | uninitialized
  | ready
  | finalized
  deriving DecidableEq, Inhabited, Repr

def InterpreterState.name : InterpreterState → String
  | uninitialized => "Uninitialized"
  | ready => "Ready"
  | finalized => "Finalized"

/-- Why a step in the life of the interpreter failed. -/
inductive LifecycleError
  | nameTaken (name : String)
  | registrationClosed (name : String)
  | finalized
  | notReady
  | noRoom
  deriving DecidableEq, Inhabited, Repr

def LifecycleError.message : LifecycleError → String
  | nameTaken name =>
    "could not extend built-in module table: module '" ++ name ++ "' is already registered"
  | registrationClosed name =>
    "built-in module '" ++ name ++ "' must be registered before the interpreter starts"
  | finalized => "interpreter was finalized; scripting cannot restart in this process"
  | notReady => "interpreter is not running"
  | noRoom => "interpreter error: Allocation failed while creating object"

/-- The interpreter while it runs, with its limits in bytes. -/
structure Interpreter where
  memoryLimit : Option Nat
  /-- How much of the stack its calls may take, before the engine throws. -/
  stackLimit : Option Nat
  /-- From what size on it first looks for what can be let go. -/
  gcThreshold : Nat
  deriving DecidableEq, Inhabited, Repr

namespace Interpreter

/-- What the engine takes for its stack and before its first collection, unless it is told otherwise. -/
def usualSize : Nat := 262144

/-- An interpreter within limits; a limit of zero is none. -/
def start (s : InterpreterSettings) : Interpreter where
  memoryLimit := (s.memoryLimit.map UInt64.toNat).filter (· != 0)
  stackLimit := some ((s.maxStackSize.map UInt64.toNat).getD usualSize) |>.filter (· != 0)
  gcThreshold := (s.gcThreshold.map UInt64.toNat).getD usualSize

/-- Whether the engine throws before its calls are beyond the end of a stack. -/
def staysWithin (i : Interpreter) (stack : Nat) : Bool := i.stackLimit.any (· ≤ stack)

end Interpreter

/-- What the engine has room for when it is asked. -/
structure Room where
  starts : Bool := true
  fits : Bool := true
  deriving DecidableEq, Inhabited, Repr

structure Lifecycle where
  settings : InterpreterSettings := {}
  state : InterpreterState := .uninitialized
  active : Nat := 0
  modules : ModuleTable := {}
  interpreter : Option Interpreter := none
  live : Nat := 0
  deriving Inhabited

namespace Lifecycle

def ofSettings (s : InterpreterSettings) : Lifecycle := { settings := s }

def register (l : Lifecycle) (m : BuiltinModule) : Except LifecycleError Lifecycle :=
  if l.state != .uninitialized then .error (.registrationClosed m.name)
  else
    match l.modules.register? m with
    | some modules => .ok { l with modules := modules }
    | none => .error (.nameTaken m.name)

/-- What the engine can be expected to have room for, where nobody says what it has: a namespace, unless the
memory is limited to far less than one takes. -/
def room (l : Lifecycle) : Room := { fits := (Interpreter.start l.settings).memoryLimit.all (131072 ≤ ·) }

/-- Starts the interpreter; the module of the host closes the table. -/
def start (l : Lifecycle) (granted : Bool) : Except LifecycleError (List Log.Entry) × Lifecycle :=
  match l.modules.register? hostModule with
  | none => (.error (.nameTaken hostModuleName), l)
  | some modules =>
    let l := { l with modules := modules }
    if granted then
      (.ok [.initialized modules.length],
        { l with interpreter := some (.start l.settings), state := .ready })
    else (.error .noRoom, l)

def retain (l : Lifecycle) : Lifecycle × List Log.Entry :=
  ({ l with active := l.active + 1 }, [.acquired (l.active + 1)])

def acquire (l : Lifecycle) (granted : Bool := l.room.starts) :
    Except LifecycleError (List Log.Entry) × Lifecycle :=
  match l.state with
  | .finalized => (.error .finalized, l)
  | .ready =>
    let (l, log) := l.retain
    (.ok log, l)
  | .uninitialized =>
    match l.start granted with
    | (.error e, l) => (.error e, l)
    | (.ok log, l) =>
      let (l, more) := l.retain
      (.ok (log ++ more), l)

def finalize (l : Lifecycle) : Lifecycle × List Log.Entry :=
  ({ l with active := 0, interpreter := none, state := .finalized }, [.finalized])

def release (l : Lifecycle) : Lifecycle × List Log.Entry :=
  match l.active with
  | 0 => (l, [.unmatchedRelease])
  | 1 => l.finalize
  | n + 2 => ({ l with active := n + 1 }, [.released (n + 1)])

/-- Makes a namespace. An identity is used up as soon as the interpreter is asked. -/
def createNamespace (l : Lifecycle) (s : Supply) (granted : Bool := l.room.fits) :
    Except LifecycleError (Namespace × Lifecycle × List Log.Entry) × Supply :=
  match l.interpreter with
  | none => (.error .notReady, s)
  | some i =>
    let (identity, s) := s.take
    if granted then
      (.ok (.fresh identity i.memoryLimit, { l with live := l.live + 1 },
        [.namespaceCreated identity]), s)
    else (.error .noRoom, s)

def dropNamespace (l : Lifecycle) (n : Namespace) : Lifecycle × List Log.Entry :=
  ({ l with live := l.live - 1 }, [.namespaceReleased n.identity])

end Lifecycle

end Patchbay
