import Patchbay.Decimal.Shortest
/-!
How a selected decimal is written: positionally, or with an exponent outside a range. Each text
format of the program is one record of decisions.
-/
namespace Patchbay.Decimal

open Binary

structure Notation where
  plainFrom : Int
  plainBelow : Int
  /-- Whether an integral value written positionally ends in a point and a zero. -/
  pointZero : Bool
  exponentWidth : Nat
  tie : Tie
  signedZero : Bool
  infinity : String
  nan : String

/-- Replies and messages: always positional, so a written number is never a symbol with an exponent. -/
def Notation.plain : Notation where
  plainFrom := -400
  plainBelow := 400
  pointZero := false
  exponentWidth := 1
  tie := .upward
  signedZero := true
  infinity := "inf"
  nan := "NaN"

def Notation.script : Notation where
  plainFrom := -6
  plainBelow := 21
  pointZero := false
  exponentWidth := 1
  tie := .toEven
  signedZero := false
  infinity := "Infinity"
  nan := "NaN"

def Notation.settings : Notation where
  plainFrom := -5
  plainBelow := 16
  pointZero := true
  exponentWidth := 2
  tie := .toEven
  signedZero := true
  infinity := "inf"
  nan := "NaN"

private def zeros (n : Nat) : String := String.ofList (List.replicate n '0')

private def padLeft (width : Nat) (s : String) : String := zeros (width - s.length) ++ s

def positional (pointZero : Bool) (d : Scaled) : String :=
  let s := toString d.digits
  if 0 ≤ d.exp then s ++ zeros d.exp.toNat ++ (if pointZero then ".0" else "")
  else
    let places := (-d.exp).toNat
    if places < s.length then
      String.ofList (s.toList.take (s.length - places)) ++ "." ++
        String.ofList (s.toList.drop (s.length - places))
    else "0." ++ padLeft places s

def scientific (width : Nat) (d : Scaled) : String :=
  let s := toString d.digits
  let e : Int := d.exp + s.length - 1
  let mantissa := match s.toList with
    | [] => ""
    | [c] => String.singleton c
    | c :: rest => String.singleton c ++ "." ++ String.ofList rest
  mantissa ++ "e" ++ (if e < 0 then "-" else "+") ++ padLeft width (toString e.natAbs)

def renderMagnitude (n : Notation) (l : Layout) (m : Nat) (q : Int) : String :=
  if m = 0 then positional n.pointZero ⟨0, 0⟩
  else
    let d := shortest l n.tie m q
    let lead : Int := d.exp + (toString d.digits).length - 1
    if n.plainFrom ≤ lead && lead < n.plainBelow then positional n.pointZero d
    else scientific n.exponentWidth d

def render (n : Notation) (l : Layout) : Datum → String
  | .nan => n.nan
  | .infinite negative => (if negative then "-" else "") ++ n.infinity
  | .finite negative m q =>
    (if negative && (m ≠ 0 || n.signedZero) then "-" else "") ++ renderMagnitude n l m q

end Patchbay.Decimal
