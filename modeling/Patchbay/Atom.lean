import Patchbay.Decimal.Layout
/-!
Atoms, the words of the host's messages: an integer, a float or a symbol. A reply carries one atom
or a flat list of them.
-/
namespace Patchbay

open Binary

inductive Atom
  | int (value : Int64)
  | float (value : Single)
  | symbol (text : String)
  deriving DecidableEq, Inhabited, Repr

namespace Atom

def asInt? : Atom → Option Int64
  | int value => some value
  | _ => none

def asFloat? : Atom → Option Single
  | float value => some value
  | _ => none

def asSymbol? : Atom → Option String
  | symbol text => some text
  | _ => none

def text : Atom → String
  | int value => toString value.toInt
  | float value => Decimal.render .plain .narrow value.datum
  | symbol text => text

def join (atoms : List Atom) : String :=
  String.intercalate " " (atoms.map text)

end Atom

inductive Reply
  | scalar (atom : Atom)
  | list (atoms : List Atom)
  deriving DecidableEq, Inhabited, Repr

namespace Reply

def atoms : Reply → List Atom
  | scalar atom => [atom]
  | list atoms => atoms

def asScalar? : Reply → Option Atom
  | scalar atom => some atom
  | list _ => none

def asList? : Reply → Option (List Atom)
  | scalar _ => none
  | list atoms => some atoms

def text : Reply → String
  | scalar atom => atom.text
  | list atoms => String.intercalate " " ("list" :: atoms.map Atom.text)

end Reply

end Patchbay
