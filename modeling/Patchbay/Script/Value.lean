import Patchbay.Binary.Double
import Patchbay.Decimal.Layout
import Patchbay.Text.Units
/-!
Values of scripts and the keys of their properties. A key that writes an index of a list is always
held as that index, so each property has one key.
-/
namespace Patchbay.Script

open Binary Text

/-- Where an object stands in the heap. -/
abbrev Ref := Nat

abbrev Name := CodeUnits

inductive Value
  | undefined
  | null
  | bool (b : Bool)
  | number (d : Double)
  | bigint (n : Int)
  | string (s : CodeUnits)
  | symbol (id : Nat)
  | object (ref : Ref)
  deriving DecidableEq, Inhabited, Repr

namespace Value

def ofString (s : String) : Value := string (.ofString s)

def ofInt (n : Int) : Value := number (.ofInt n)

def ofNat (n : Nat) : Value := number (.ofInt n)

def nan : Value := number .nan

def isNullish : Value → Bool
  | undefined | null => true
  | _ => false

def isObject : Value → Bool
  | object _ => true
  | _ => false

def ref? : Value → Option Ref
  | object ref => some ref
  | _ => none

def strictEq : Value → Value → Bool
  | number a, number b => a.eq b
  | a, b => a == b

/-- Equality of the keys of sets: what is no number equals itself, and both zeros are one. -/
def sameZero : Value → Value → Bool
  | number a, number b => (a.isNaN && b.isNaN) || a.eq b
  | a, b => a == b

def same : Value → Value → Bool
  | number a, number b => (a.isNaN && b.isNaN) || a == b
  | a, b => a == b

def truthy : Value → Bool
  | undefined | null => false
  | bool b => b
  | number d => !(d.isZero || d.isNaN)
  | bigint n => n != 0
  | string s => !s.isEmpty
  | symbol _ | object _ => true

end Value

def numberText (d : Double) : CodeUnits := .ofString (Decimal.render .script .wide d.datum)

/-- The index of a list that a text writes: decimal digits without a leading zero. -/
def indexOf? (s : CodeUnits) : Option Nat :=
  let digits := s.units.toList
  if digits.isEmpty || 10 < digits.length || !digits.all (fun u => 0x30 ≤ u && u ≤ 0x39) ||
      (digits.head? == some 0x30 && 1 < digits.length) then none
  else
    let n := digits.foldl (fun n u => 10 * n + (u.toNat - 0x30)) 0
    if n < 4294967295 then some n else none

inductive Key
  | index (n : Nat)
  | text (s : Name)
  | symbol (id : Nat)
  deriving DecidableEq, Inhabited, Repr

namespace Key

def ofUnits (s : CodeUnits) : Key :=
  match indexOf? s with
  | some n => index n
  | none => text s

def named (s : String) : Key := text (.ofString s)

def toValue : Key → Value
  | index n => .string (.ofNat n)
  | text s => .string s
  | symbol id => .symbol id

def isSymbol : Key → Bool
  | symbol _ => true
  | _ => false

end Key

def symbolIterator : Nat := 0

def symbolHasInstance : Nat := 1

def symbolToPrimitive : Nat := 2

def symbolToStringTag : Nat := 3

def symbolSpread : Nat := 6

def wellKnownSymbols : List String :=
  ["Symbol.iterator", "Symbol.hasInstance", "Symbol.toPrimitive", "Symbol.toStringTag",
    "Symbol.asyncIterator", "Symbol.species", "Symbol.isConcatSpreadable", "Symbol.unscopables",
    "Symbol.match", "Symbol.matchAll", "Symbol.replace", "Symbol.search", "Symbol.split"]

inductive Slot
  | data (value : Value) (writable : Bool)
  | accessor (getter setter : Value)
  deriving DecidableEq, Inhabited, Repr

structure Property where
  slot : Slot
  enumerable : Bool
  configurable : Bool
  deriving DecidableEq, Inhabited, Repr

namespace Property

def plain (v : Value) : Property := ⟨.data v true, true, true⟩

def hidden (v : Value) : Property := ⟨.data v true, false, true⟩

def fixed (v : Value) : Property := ⟨.data v false, false, false⟩

def constant (v : Value) : Property := ⟨.data v false, false, true⟩

end Property

end Patchbay.Script
