import Patchbay.Diagnostic
import Patchbay.Text.Quoted
/-!
Work put off until the next turn of the host, in the order in which it was asked for.
-/
namespace Patchbay

inductive DeferredTask
  /-- Read a script into the owner's text; no name means the remembered file. -/
  | read (name : Option String)
  | load (name : String)
  deriving DecidableEq, Inhabited, Repr

def DeferredTask.shown : DeferredTask → String
  | read none => "Read \x7b name: None \x7d"
  | read (some name) => "Read \x7b name: Some(" ++ Text.Quoted.quote name ++ ") \x7d"
  | load name => "Load \x7b name: " ++ Text.Quoted.quote name ++ " \x7d"

structure DeferralQueue where
  pending : List (Identity × DeferredTask) := []
  deriving DecidableEq, Inhabited, Repr

namespace DeferralQueue

def schedule (q : DeferralQueue) (owner : Identity) (task : DeferredTask) : DeferralQueue :=
  ⟨q.pending ++ [(owner, task)]⟩

/-- Everything queued so far, and a queue for what the turn will put off. -/
def takeTurn (q : DeferralQueue) : List (Identity × DeferredTask) × DeferralQueue :=
  (q.pending, ⟨[]⟩)

def length (q : DeferralQueue) : Nat := q.pending.length

def isEmpty (q : DeferralQueue) : Bool := q.pending.isEmpty

end DeferralQueue

end Patchbay
