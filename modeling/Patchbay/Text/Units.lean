import Patchbay.Text.Utf8
/-!
Text as sixteen-bit units, the form in which scripts hold it. A pair of surrogates stands for one
character; a surrogate without its partner stands for none, and such a text has no plain reading.
-/
namespace Patchbay.Text

structure CodeUnits where
  units : Array UInt16
  deriving DecidableEq, Inhabited, Repr, Hashable

namespace CodeUnits

def isHigh (u : UInt16) : Bool := 0xD800 ≤ u && u ≤ 0xDBFF

def isLow (u : UInt16) : Bool := 0xDC00 ≤ u && u ≤ 0xDFFF

def ofCodePoint (n : Nat) : List UInt16 :=
  if n < 0x10000 then [n.toUInt16]
  else
    let m := n - 0x10000
    [(0xD800 + m / 0x400).toUInt16, (0xDC00 + m % 0x400).toUInt16]

def ofCodePoints (s : List Nat) : CodeUnits :=
  ⟨(s.flatMap ofCodePoint).toArray⟩

def ofChars (s : List Char) : CodeUnits :=
  ofCodePoints (s.map Char.toNat)

def ofString (s : String) : CodeUnits :=
  ofChars s.toList

def pairUp : List UInt16 → List Nat
  | [] => []
  | [u] => [u.toNat]
  | u :: v :: rest =>
    if isHigh u && isLow v then
      (0x10000 + (u.toNat - 0xD800) * 0x400 + (v.toNat - 0xDC00)) :: pairUp rest
    else u.toNat :: pairUp (v :: rest)

def codePoints (s : CodeUnits) : List Nat := pairUp s.units.toList

def isSurrogate (n : Nat) : Bool := 0xD800 ≤ n && n ≤ 0xDFFF

def toString? (s : CodeUnits) : Except Nat String :=
  let points := s.codePoints
  let good := (points.takeWhile fun n => !isSurrogate n).map Char.ofNat
  if good.length < points.length then .error (Utf8.encode good).length
  else .ok (String.ofList good)

def lossy (s : CodeUnits) : String :=
  String.ofList (s.codePoints.map fun n => if isSurrogate n then Utf8.replacement else Char.ofNat n)

def length (s : CodeUnits) : Nat := s.units.size

def append (s t : CodeUnits) : CodeUnits := ⟨s.units ++ t.units⟩

instance : Append CodeUnits := ⟨append⟩

def isEmpty (s : CodeUnits) : Bool := s.units.isEmpty

def extract (s : CodeUnits) (start stop : Nat) : CodeUnits := ⟨s.units.extract start stop⟩

def lt (s t : CodeUnits) : Bool :=
  go s.units.toList t.units.toList
where
  go : List UInt16 → List UInt16 → Bool
    | _, [] => false
    | [], _ :: _ => true
    | a :: s, b :: t => if a < b then true else if b < a then false else go s t

def indexOf? (s needle : CodeUnits) (start : Nat) : Option Nat :=
  (List.range (s.length + 1 - needle.length - start)).findSome? fun k =>
    if s.extract (start + k) (start + k + needle.length) == needle then some (start + k) else none

def lastIndexOf? (s needle : CodeUnits) (stop : Nat) : Option Nat :=
  if s.length < needle.length then none
  else (List.range (min stop (s.length - needle.length) + 1)).reverse.find? fun k =>
    s.extract k (k + needle.length) == needle

def ofNat (n : Nat) : CodeUnits := ofString (toString n)

end CodeUnits

end Patchbay.Text
