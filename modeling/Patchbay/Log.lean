import Patchbay.DeferralQueue
/-!
The log of the host: what happened, how serious it is, and whose doing it was. Nothing ever reads it
back, so it has no influence on what the host does.
-/
namespace Patchbay.Log

/-- How serious an entry is, the most serious first. -/
inductive Level
  | error
  | warn
  | info
  | debug
  | trace
  deriving DecidableEq, Inhabited, Repr

namespace Level

def name : Level → String
  | error => "ERROR"
  | warn => "WARN"
  | info => "INFO"
  | debug => "DEBUG"
  | trace => "TRACE"

def ofName? (s : String) : Option Level :=
  [error, warn, info, debug, trace].find? fun l => l.name.toLower == s

def shownAt (l threshold : Level) : Bool := l.ctorIdx ≤ threshold.ctorIdx

end Level

structure Entry where
  level : Level
  message : String
  fromScript : Bool := false
  fields : List (String × String) := []
  deriving DecidableEq, Inhabited, Repr

namespace Entry

def initialized (modules : Nat) : Entry :=
  { level := .info, message := "interpreter initialized", fields := [("modules", toString modules)] }

def acquired (active : Nat) : Entry :=
  { level := .trace, message := "interpreter acquired", fields := [("active", toString active)] }

def released (active : Nat) : Entry :=
  { level := .trace, message := "interpreter released", fields := [("active", toString active)] }

def finalized : Entry := { level := .info, message := "last owner released, interpreter finalized" }

def unmatchedRelease : Entry :=
  { level := .warn, message := "interpreter released without a matching acquire" }

def namespaceCreated (owner : Identity) : Entry :=
  { level := .debug, message := "namespace created", fields := [("owner", owner.text)] }

def namespaceReleased (owner : Identity) : Entry :=
  { level := .debug, message := "namespace released", fields := [("owner", owner.text)] }

def posted (owner : Identity) (isError : Bool) (text : String) : Entry :=
  { level := if isError then .error else .info, message := text, fromScript := true,
    fields := [("owner", owner.text)] }

def longList (length : Nat) : Entry :=
  { level := .debug, message := "list exceeds inline atom capacity, using heap buffer",
    fields := [("len", toString length)] }

def deferred (owner : Identity) (task : String) : Entry :=
  { level := .trace, message := "task deferred", fields := [("owner", owner.text), ("task", task)] }

def taskDropped (owner : Identity) (task : String) : Entry :=
  { level := .debug, message := "owner gone, deferred task dropped",
    fields := [("owner", owner.text), ("task", task)] }

def unknownOwner (owner : Identity) : Entry :=
  { level := .warn, message := "message for unknown owner", fields := [("owner", owner.text)] }

def note (label text : String) : Entry :=
  { level := .info, message := text, fields := [("owner", label)] }

def failure (label text : String) : Entry :=
  { level := .error, message := text, fields := [("owner", label)] }

def traceback (label text : String) : Entry :=
  { level := .debug, message := text, fields := [("owner", label)] }

end Entry

end Patchbay.Log
