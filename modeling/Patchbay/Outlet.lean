import Patchbay.Atom
import Patchbay.Diagnostic
/-!
What owners send back: signals, replies and reports of failures.
-/
namespace Patchbay

inductive Channel
  | signal
  | reply
  deriving DecidableEq, Inhabited, Repr

def Channel.name : Channel → String
  | signal => "signal"
  | reply => "reply"

inductive Output
  | bang
  | value (r : Reply)
  deriving DecidableEq, Inhabited, Repr

def Output.text : Output → String
  | bang => "bang"
  | value r => r.text

inductive Event
  | emitted (owner : Identity) (channel : Channel) (output : Output)
  | reported (d : Diagnostic)
  deriving DecidableEq, Inhabited, Repr

end Patchbay
