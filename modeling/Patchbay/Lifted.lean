import Patchbay.Atom
/-!
Values that left the script engine, and the atoms that stand for them. A collection becomes the flat
list of its scalar items; what has no atom contributes none.
-/
namespace Patchbay

open Binary

inductive Bare
  | undefined
  | null
  | function
  | symbol
  | bigint
  | object
  deriving DecidableEq, Inhabited, Repr

def Bare.name : Bare → String
  | undefined => "undefined"
  | null => "null"
  | function => "function"
  | symbol => "symbol"
  | bigint => "bigint"
  | object => "object"

inductive Lifted
  | int (value : Int64)
  | float (value : Double)
  | bool (value : Bool)
  | text (value : String)
  | collection (items : List Lifted)
  | bare (kind : Bare)
  deriving Inhabited, Repr

namespace Lifted

def exactLimit : Nat := 9007199254740991

/-- A double that is an integer within the exact range counts as that integer. -/
def ofNumber (d : Double) : Lifted :=
  match d.toInt? with
  | some n => if n.natAbs ≤ exactLimit then int (Int64.ofInt n) else float d
  | none => float d

def isCollection : Lifted → Bool
  | collection _ => true
  | _ => false

/-- The atom of a single value. A float is narrowed to the nearest float of the wire. -/
def scalar? : Lifted → Option Atom
  | int value => some (.int value)
  | bool value => some (.int (if value then 1 else 0))
  | float value => some (.float (Single.ofDouble value))
  | text value => some (.symbol value)
  | collection _ | bare _ => none

def encode? : Lifted → Option Reply
  | collection items => some (.list (items.filterMap scalar?))
  | value => value.scalar?.map .scalar

/-- Lists longer than this do not fit the short buffer of a reply. -/
def shortList : Nat := 128

def longLength? : Lifted → Option Nat
  | collection items => if shortList < items.length then some items.length else none
  | _ => none

end Lifted

end Patchbay
