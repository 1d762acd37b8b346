import Patchbay.Script.Native
import Patchbay.Script.Value
/-!
The elements of typed arrays as bytes, the lowest byte first. An integer element takes a number
modulo its range, except that a clamped one goes to the nearest value of its range.
-/
namespace Patchbay.Script

open Binary

def wrapUnsigned (bits : Nat) (n : Int) : Int := n % (Nat.pow 2 bits : Int)

def wrapSigned (bits : Nat) (n : Int) : Int := Int.bmod n (Nat.pow 2 bits)

def toInt32 (d : Double) : Int := wrapSigned 32 d.toIntTrunc

def toUint32 (d : Double) : Int := wrapUnsigned 32 d.toIntTrunc

def bytesOfNat : Nat → Nat → List UInt8
  | 0, _ => []
  | count + 1, n => (n % 256).toUInt8 :: bytesOfNat count (n / 256)

def natOfBytes : List UInt8 → Nat
  | [] => 0
  | b :: rest => b.toNat + 256 * natOfBytes rest

def clampByte (d : Double) : Nat :=
  match d.datum with
  | .nan => 0
  | .infinite negative => if negative then 0 else 255
  | .finite negative m q =>
    if negative then 0 else min 255 (roundHalfEven (m * Nat.pow 2 q.toNat) (Nat.pow 2 (-q).toNat))

namespace Element

def ofNumber (e : Element) (d : Double) : List UInt8 :=
  match e with
  | clamped => bytesOfNat 1 (clampByte d)
  | float32 => bytesOfNat 4 (Single.ofDouble d).bits.toNat
  | float64 => bytesOfNat 8 d.bits.toNat
  | e => bytesOfNat e.size (wrapUnsigned (8 * e.size) d.toIntTrunc).toNat

def ofBig (e : Element) (n : Int) : List UInt8 :=
  bytesOfNat e.size (wrapUnsigned (8 * e.size) n).toNat

def value (e : Element) (bytes : List UInt8) : Value :=
  let n := natOfBytes bytes
  match e with
  | uint8 | clamped | uint16 | uint32 => .ofNat n
  | int8 | int16 | int32 => .ofInt (wrapSigned (8 * e.size) n)
  | bigInt64 => .bigint (wrapSigned 64 n)
  | bigUint64 => .bigint n
  | float32 => .number (Single.toDouble ⟨n.toUInt32⟩)
  | float64 => .number ⟨n.toUInt64⟩

end Element

end Patchbay.Script
