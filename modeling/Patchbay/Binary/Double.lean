import Patchbay.Binary.Layout
/-!
Sixty-four and thirty-two bit floats as patterns of bits. Equality of the types is equality of
patterns; arithmetic on doubles is that of the machine.
-/
namespace Patchbay.Binary

structure Double where
  bits : UInt64
  deriving DecidableEq, Inhabited, Repr, Hashable

structure Single where
  bits : UInt32
  deriving DecidableEq, Inhabited, Repr, Hashable

namespace Double

def datum (d : Double) : Datum := Layout.wide.decode d.bits.toNat

def ofDatum (d : Datum) : Double := ⟨(Layout.wide.encode d).toUInt64⟩

def nan : Double := ofDatum .nan

def zero : Double := ⟨0⟩

def one : Double := ⟨0x3FF0000000000000⟩

def infinity : Double := ⟨0x7FF0000000000000⟩

def isNaN (d : Double) : Bool := d.datum == .nan

def isFinite (d : Double) : Bool :=
  match d.datum with
  | .finite .. => true
  | _ => false

def isNegative (d : Double) : Bool := decide (0x8000000000000000 ≤ d.bits)

def isZero (d : Double) : Bool := d.bits == 0 || d.bits == 0x8000000000000000

def toFloat (d : Double) : Float := Float.ofBits d.bits

def ofFloat (x : Float) : Double := ⟨x.toBits⟩

def neg (d : Double) : Double := ⟨d.bits ^^^ 0x8000000000000000⟩

def abs (d : Double) : Double := ⟨d.bits &&& 0x7FFFFFFFFFFFFFFF⟩

def add (a b : Double) : Double := ofFloat (a.toFloat + b.toFloat)

def sub (a b : Double) : Double := ofFloat (a.toFloat - b.toFloat)

def mul (a b : Double) : Double := ofFloat (a.toFloat * b.toFloat)

def div (a b : Double) : Double := ofFloat (a.toFloat / b.toFloat)

def lt (a b : Double) : Bool := decide (a.toFloat < b.toFloat)

def le (a b : Double) : Bool := decide (a.toFloat ≤ b.toFloat)

/-- Equality of numbers: both zeros are equal, and what is no number equals nothing. -/
def eq (a b : Double) : Bool := a.toFloat == b.toFloat

def ofInt (n : Int) : Double :=
  ⟨(Layout.wide.signed (decide (n < 0)) (Layout.wide.nearest n.natAbs 1)).toUInt64⟩

def ofDecimal (negative : Bool) (digits : Nat) (e : Int) : Double :=
  ⟨(Layout.wide.signed negative (Layout.wide.nearestDecimal digits e)).toUInt64⟩

def wholePart (m : Nat) (q : Int) : Nat :=
  if 0 ≤ q then m * Nat.pow 2 q.toNat else m / Nat.pow 2 (-q).toNat

def toInt? (d : Double) : Option Int :=
  match d.datum with
  | .finite negative m q =>
    if 0 ≤ q || m % Nat.pow 2 (-q).toNat = 0 then
      let n : Int := wholePart m q
      some (if negative then -n else n)
    else none
  | _ => none

def toIntTrunc (d : Double) : Int :=
  match d.datum with
  | .finite negative m q =>
    let n : Int := wholePart m q
    if negative then -n else n
  | _ => 0

def rem (a b : Double) : Double :=
  match a.datum, b.datum with
  | .finite negative m q, .finite _ n r =>
    if n = 0 then nan
    else
      let low := min q r
      ofDatum (.finite negative (m * Nat.pow 2 (q - low).toNat % (n * Nat.pow 2 (r - low).toNat)) low)
  | .finite .., .infinite _ => a
  | _, _ => nan

def floor (d : Double) : Double :=
  match d.datum with
  | .finite negative m q =>
    if 0 ≤ q then d
    else
      let den := Nat.pow 2 (-q).toNat
      if negative then ofDatum (.finite true ((m + den - 1) / den) 0)
      else ofDatum (.finite false (m / den) 0)
  | _ => d

def ceil (d : Double) : Double := (floor d.neg).neg

def trunc (d : Double) : Double :=
  if d.isNegative then d.ceil else d.floor

end Double

namespace Single

def datum (x : Single) : Datum := Layout.narrow.decode x.bits.toNat

def ofDatum (d : Datum) : Single := ⟨(Layout.narrow.encode d).toUInt32⟩

def ofDouble (d : Double) : Single := ofDatum d.datum

def toDouble (x : Single) : Double := Double.ofDatum x.datum

def ofDecimal (negative : Bool) (digits : Nat) (e : Int) : Single :=
  ⟨(Layout.narrow.signed negative (Layout.narrow.nearestDecimal digits e)).toUInt32⟩

end Single

end Patchbay.Binary
