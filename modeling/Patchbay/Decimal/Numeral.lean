import Patchbay.Binary.Double
/-!
Numbers read from text: integers within sixty-four bits, and decimals with an optional point and
exponent. Both refuse anything after the number.
-/
namespace Patchbay.Decimal

open Binary

def isDigit (c : Char) : Bool := '0' ≤ c && c ≤ '9'

def digitValue (c : Char) : Nat := c.toNat - '0'.toNat

def natOfDigits (s : List Char) : Nat :=
  s.foldl (fun n c => 10 * n + digitValue c) 0

def splitSign : List Char → Bool × List Char
  | '-' :: rest => (true, rest)
  | '+' :: rest => (false, rest)
  | s => (false, s)

def integer? (s : List Char) : Option Int64 :=
  let (negative, digits) := splitSign s
  if digits.isEmpty || !digits.all isDigit then none
  else
    let n : Int := if negative then -(natOfDigits digits : Int) else natOfDigits digits
    if -9223372036854775808 ≤ n && n ≤ 9223372036854775807 then some (Int64.ofInt n) else none

/-- A numeral taken apart: `digits · 10 ^ exp`, with a sign. -/
structure Numeral where
  negative : Bool
  digits : Nat
  exp : Int
  deriving DecidableEq, Repr

/-- The exponent at the end of a numeral: nothing, or a mark, an optional sign and digits. -/
def exponent? : List Char → Option Int
  | [] => some 0
  | c :: rest =>
    if c = 'e' || c = 'E' then
      let (negative, digits) := splitSign rest
      if digits.isEmpty || !digits.all isDigit then none
      else some (if negative then -(natOfDigits digits : Int) else natOfDigits digits)
    else none

/-- An optional sign, digits with at most one point and at least one digit, and an exponent. -/
def numeral? (s : List Char) : Option Numeral :=
  let (negative, s) := splitSign s
  let whole := s.takeWhile isDigit
  let rest := s.dropWhile isDigit
  let (part, rest) := match rest with
    | '.' :: rest => (rest.takeWhile isDigit, rest.dropWhile isDigit)
    | rest => ([], rest)
  if whole.isEmpty && part.isEmpty then none
  else (exponent? rest).map fun e => ⟨negative, natOfDigits (whole ++ part), e - part.length⟩

def Numeral.toSingle (n : Numeral) : Single := Single.ofDecimal n.negative n.digits n.exp

def Numeral.toDouble (n : Numeral) : Double := Double.ofDecimal n.negative n.digits n.exp

def single? (s : List Char) : Option Single := (numeral? s).map Numeral.toSingle

end Patchbay.Decimal
