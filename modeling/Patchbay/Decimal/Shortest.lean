import Patchbay.Binary.Double
/-!
The fewest decimal digits that read back. For one digit, two digits and so on, the two neighbours of
the value on that decimal grid are read; the first grid on which one of them reads back to the same
pattern gives the digits, the nearer of two, and an exact tie is decided by the format.
-/
namespace Patchbay.Decimal

open Binary

structure Scaled where
  digits : Nat
  exp : Int
  deriving DecidableEq, Repr, Inhabited

/-- Which of two equally near decimals is taken. -/
inductive Tie
  | toEven
  | upward
  deriving DecidableEq, Repr

def readsBack (l : Layout) (magnitude : Nat) (d : Scaled) : Bool :=
  l.nearestDecimal d.digits d.exp == magnitude

def scale (num den : Nat) : Int :=
  let guess : Int := ((toString num).length : Int) - (toString den).length
  if num * Nat.pow 10 (-guess).toNat < den * Nat.pow 10 guess.toNat then guess else guess + 1

def onGrid? (l : Layout) (tie : Tie) (magnitude num den : Nat) (e : Int) : Option Scaled :=
  let n := num * Nat.pow 10 (-e).toNat
  let d := den * Nat.pow 10 e.toNat
  let low : Scaled := ⟨n / d, e⟩
  let high : Scaled := ⟨n / d + 1, e⟩
  match readsBack l magnitude low, readsBack l magnitude high with
  | true, true =>
    let twice := 2 * (n % d)
    if twice < d then some low
    else if d < twice then some high
    else match tie with
      | .upward => some high
      | .toEven => if low.digits % 2 = 0 then some low else some high
  | true, false => some low
  | false, true => some high
  | false, false => none

def strip (d : Scaled) : Scaled :=
  go d.digits.log2 d
where
  go : Nat → Scaled → Scaled
    | 0, d => d
    | fuel + 1, d =>
      if d.digits ≠ 0 && d.digits % 10 = 0 then go fuel ⟨d.digits / 10, d.exp + 1⟩ else d

/-- The shortest decimal of the positive value `m · 2 ^ q`. Seventeen digits always suffice; were
they not to, the exact decimal expansion would be taken. -/
def shortest (l : Layout) (tie : Tie) (m : Nat) (q : Int) : Scaled :=
  let num := m * Nat.pow 2 q.toNat
  let den := Nat.pow 2 (-q).toNat
  let magnitude := l.nearest num den
  let k := scale num den
  let found := (List.range 17).findSome? fun (n : Nat) =>
    onGrid? l tie magnitude num den (k - 1 - (n : Int))
  strip (found.getD ⟨num * Nat.pow 5 (-q).toNat, -((-q).toNat : Int)⟩)

end Patchbay.Decimal
