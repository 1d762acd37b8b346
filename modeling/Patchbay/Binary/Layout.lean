/-!
Binary floating-point layouts. A pattern of bits stands for a number `± m · 2 ^ q`, for an infinity
or for no number. The nearest pattern of a ratio of naturals is found by one exact division, ties
going to the even neighbour; a number read from text, an integer and a wider float all pass through
that one division.
-/
namespace Patchbay.Binary

/-- A layout: how many bits hold the fraction, and how many the exponent. -/
structure Layout where
  fraction : Nat
  exponent : Nat
  deriving DecidableEq, Repr

inductive Datum
  | nan
  | infinite (negative : Bool)
  | finite (negative : Bool) (m : Nat) (q : Int)
  deriving DecidableEq, Repr

def roundHalfEven (num den : Nat) : Nat :=
  let q := num / den
  let r := num % den
  if 2 * r < den then q
  else if den < 2 * r then q + 1
  else if q % 2 = 0 then q else q + 1

namespace Layout

def wide : Layout := ⟨52, 11⟩

def narrow : Layout := ⟨23, 8⟩

def least (l : Layout) : Int := 2 - (Nat.pow 2 (l.exponent - 1) : Int) - l.fraction

def infinity (l : Layout) : Nat := (Nat.pow 2 l.exponent - 1) * Nat.pow 2 l.fraction

def signBit (l : Layout) : Nat := Nat.pow 2 (l.exponent + l.fraction)

def decode (l : Layout) (bits : Nat) : Datum :=
  let negative := decide (l.signBit ≤ bits)
  let magnitude := bits % l.signBit
  let biased := magnitude / Nat.pow 2 l.fraction
  let f := magnitude % Nat.pow 2 l.fraction
  if biased = Nat.pow 2 l.exponent - 1 then
    if f = 0 then .infinite negative else .nan
  else if biased = 0 then .finite negative f l.least
  else .finite negative (Nat.pow 2 l.fraction + f) (l.least + biased - 1)

/-- The greatest `k` with `2 ^ k` at most the ratio of two positive naturals. -/
def logRatio (num den : Nat) : Int :=
  let k : Int := (num.log2 : Int) - den.log2
  if num * Nat.pow 2 (-k).toNat < den * Nat.pow 2 k.toNat then k - 1 else k

def grid (l : Layout) (num den : Nat) : Int :=
  max l.least (logRatio num den - l.fraction)

/-- The pattern nearest to the ratio of two naturals, without a sign. A carry past the grid lands on
the next exponent by itself, because the fraction sits below the exponent. -/
def nearest (l : Layout) (num den : Nat) : Nat :=
  if num = 0 then 0
  else
    let q := l.grid num den
    let m := roundHalfEven (num * Nat.pow 2 (-q).toNat) (den * Nat.pow 2 q.toNat)
    min l.infinity ((q - l.least).toNat * Nat.pow 2 l.fraction + m)

def nearestDyadic (l : Layout) (m : Nat) (q : Int) : Nat :=
  l.nearest (m * Nat.pow 2 q.toNat) (Nat.pow 2 (-q).toNat)

/-- The pattern nearest to `digits · 10 ^ e`. Exponents far outside the layout are decided by the
number of digits alone, so no power is formed for them. -/
def nearestDecimal (l : Layout) (digits : Nat) (e : Int) : Nat :=
  let magnitude : Int := e + (toString digits).length
  if digits = 0 || magnitude < -400 then 0
  else if 400 < magnitude then l.infinity
  else l.nearest (digits * Nat.pow 10 e.toNat) (Nat.pow 10 (-e).toNat)

def signed (l : Layout) (negative : Bool) (magnitude : Nat) : Nat :=
  if negative then l.signBit + magnitude else magnitude

def notANumber (l : Layout) : Nat := l.infinity + Nat.pow 2 (l.fraction - 1)

def encode (l : Layout) : Datum → Nat
  | .nan => l.notANumber
  | .infinite negative => l.signed negative l.infinity
  | .finite negative m q => l.signed negative (l.nearestDyadic m q)

end Layout

end Patchbay.Binary
