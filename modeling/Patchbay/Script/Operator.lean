import Patchbay.Script.Property.Write
/-!
The operators of scripts on values. A number and a big integer compare, but they do not mix in
arithmetic.
-/
namespace Patchbay.Script

open Binary Text

/-- Whether an integer is less than a number; nothing when the number is none. -/
def bigLess? (n : Int) (d : Double) : Option Bool :=
  match d.datum with
  | .nan => none
  | .infinite negative => some !negative
  | .finite negative m q =>
    let value : Int := if negative then -(m : Int) else m
    some (decide (n * (Nat.pow 2 (-q).toNat : Int) < value * (Nat.pow 2 q.toNat : Int)))

/-- Whether a number is less than an integer; nothing when the number is none. -/
def lessBig? (d : Double) (n : Int) : Option Bool :=
  match d.datum with
  | .nan => none
  | .infinite negative => some negative
  | .finite negative m q =>
    let value : Int := if negative then -(m : Int) else m
    some (decide (value * (Nat.pow 2 q.toNat : Int) < n * (Nat.pow 2 (-q).toNat : Int)))

/-- Whether one primitive value is less than another; nothing when they do not compare. -/
def primitiveLess? (a b : Value) : Run (Option Bool) := do
  match a, b with
  | .string a, .string b => return some (a.lt b)
  | .bigint a, .string b => return (bigOf? b.lossy.toList).map fun b => decide (a < b)
  | .string a, .bigint b => return (bigOf? a.lossy.toList).map fun a => decide (a < b)
  | a, b =>
    match a, b with
    | .bigint a, .bigint b => return some (decide (a < b))
    | .bigint a, b => return bigLess? a (← primitiveNumber b)
    | a, .bigint b => return lessBig? (← primitiveNumber a) b
    | a, b =>
      let a ← primitiveNumber a
      let b ← primitiveNumber b
      return if a.isNaN || b.isNaN then none else some (a.lt b)

def bigEq (n : Int) (d : Double) : Bool := d.toInt? == some n

def looseEq (e : Engine) : Nat → Value → Value → Run Bool
  | 0, a, b => return a.strictEq b
  | fuel + 1, a, b => do
    match a, b with
    | .undefined, .null | .null, .undefined => return true
    | .number a, .string b => return a.eq (numberOf b.lossy.toList)
    | .string a, .number b => return (numberOf a.lossy.toList).eq b
    | .bigint a, .string b => return bigOf? b.lossy.toList == some a
    | .string a, .bigint b => return bigOf? a.lossy.toList == some b
    | .bigint a, .number b => return bigEq a b
    | .number a, .bigint b => return bigEq b a
    | .object a, .object b => return a == b
    | .bool a, b => looseEq e fuel (.number (if a then .one else .zero)) b
    | a, .bool b => looseEq e fuel a (.number (if b then .one else .zero))
    | .object a, b =>
      if b.isNullish then return false
      else looseEq e fuel (← toPrimitive e .default (.object a)) b
    | a, .object b =>
      if a.isNullish then return false
      else looseEq e fuel a (← toPrimitive e .default (.object b))
    | a, b => return a.strictEq b

def power (a b : Double) : Double :=
  if b.isNaN || (!b.isFinite && a.abs == .one) then .nan
  else .ofFloat (Float.pow a.toFloat b.toFloat)

def numberOp (op : BinaryOp) (a b : Double) : Double :=
  match op with
  | .add => a.add b
  | .sub => a.sub b
  | .mul => a.mul b
  | .div => a.div b
  | .rem => a.rem b
  | .pow => power a b
  | .shl => .ofInt (wrapSigned 32 (toInt32 a * Nat.pow 2 ((toUint32 b).toNat % 32)))
  | .sar => .ofInt (toInt32 a / Nat.pow 2 ((toUint32 b).toNat % 32))
  | .shr => .ofInt (toUint32 a / Nat.pow 2 ((toUint32 b).toNat % 32))
  | .and => .ofInt (wrapSigned 32 ((toUint32 a).toNat &&& (toUint32 b).toNat : Nat))
  | .or => .ofInt (wrapSigned 32 ((toUint32 a).toNat ||| (toUint32 b).toNat : Nat))
  | .xor => .ofInt (wrapSigned 32 ((toUint32 a).toNat ^^^ (toUint32 b).toNat : Nat))
  | _ => .nan

def bigBits (op : Nat → Nat → Nat) (a b : Int) : Int :=
  let width := max a.natAbs.log2 b.natAbs.log2 + 2
  let row (n : Int) : Nat := (wrapUnsigned width n).toNat
  wrapSigned width (op (row a) (row b) : Nat)

def bigLimit : Nat := 1048576

def bigOp (op : BinaryOp) (a b : Int) : Run Int := do
  match op with
  | .add => return a + b
  | .sub => return a - b
  | .mul => return a * b
  | .div => if b = 0 then throwRange "division by zero" else return a.tdiv b
  | .rem => if b = 0 then throwRange "division by zero" else return a.tmod b
  | .pow =>
    if b < 0 then throwRange "negative exponent"
    else if 1 < a.natAbs && bigLimit < (a.natAbs.log2 + 1) * b.toNat then
      throwNew .internal "out of memory"
    else return Int.pow a (if a.natAbs ≤ 1 then b.toNat % 2 + (if b = 0 then 0 else 2) else b.toNat)
  | .shl | .sar =>
    let left := if op == .shl then b else -b
    if 0 ≤ left then
      if a != 0 && (bigLimit : Int) < left then throwNew .internal "out of memory"
      else return a * Nat.pow 2 left.toNat
    else if (bigLimit : Int) < -left then return if a < 0 then -1 else 0
    else return a / Nat.pow 2 (-left).toNat
  | .shr => throwType "bigint operands are forbidden for >>>"
  | .and => return bigBits (· &&& ·) a b
  | .or => return bigBits (· ||| ·) a b
  | .xor => return bigBits (· ^^^ ·) a b
  | _ => return 0

def numericOp (op : BinaryOp) (a b : Value) : Run Value := do
  match a, b with
  | .number a, .number b => return .number (numberOp op a b)
  | .bigint a, .bigint b => return .bigint (← bigOp op a b)
  | _, _ => throwType "cannot convert to bigint"

def addition (e : Engine) (a b : Value) : Run Value := do
  let a ← toPrimitive e .default a
  let b ← toPrimitive e .default b
  match a, b with
  | .string a, b => claimText (a ++ (← primitiveText b))
  | a, .string b => claimText ((← primitiveText a) ++ b)
  | a, b => numericOp .add (← toNumeric e a) (← toNumeric e b)

def invalidInstanceOf : String := "invalid 'instanceof' right operand"

/-- Whether an object is an instance of a function that has no answer of its own. A bound function stands
for its target, which may have one. -/
def ordinaryFrom (e : Engine) : Nat → Value → Value → Run Bool
  | 0, _, _ => throwNested
  | fuel + 1, v, f => do
    if !(← isCallable f) then return false
    match f with
    | .object fr =>
      match (← object fr).payload with
      | .bound target _ _ =>
        match ← method? e target (.symbol symbolHasInstance) with
        | some test => return (← e.call test target [v]).truthy
        | none => ordinaryFrom e fuel v target
      | _ =>
        match v with
        | .object r =>
          match ← getNamed e fr "prototype" with
          | .object p => inheritsFrom e p chainLimit r
          | _ => throwType "operand 'prototype' property is not an object"
        | _ => return false
    | _ => return false

def ordinaryInstance (e : Engine) (v f : Value) : Run Bool := ordinaryFrom e chainLimit v f

def instanceOf (e : Engine) (v f : Value) : Run Bool := do
  match f with
  | .object _ =>
    match ← method? e f (.symbol symbolHasInstance) with
    | some test => return (← e.call test f [v]).truthy
    | none => if ← isCallable f then ordinaryInstance e v f else throwType invalidInstanceOf
  | _ => throwType invalidInstanceOf

def binaryOp (e : Engine) (op : BinaryOp) (a b : Value) : Run Value := do
  match op with
  | .add => addition e a b
  | .strictEq => return .bool (a.strictEq b)
  | .strictNe => return .bool !(a.strictEq b)
  | .looseEq => return .bool (← looseEq e 8 a b)
  | .looseNe => return .bool !(← looseEq e 8 a b)
  | .lt | .gt | .le | .ge =>
    let a ← toPrimitive e .number a
    let b ← toPrimitive e .number b
    match op with
    | .lt => return .bool ((← primitiveLess? a b) == some true)
    | .gt => return .bool ((← primitiveLess? b a) == some true)
    | .le => return .bool ((← primitiveLess? b a) == some false)
    | _ => return .bool ((← primitiveLess? a b) == some false)
  | .instanceOf => return .bool (← instanceOf e a b)
  | .isIn =>
    match b with
    | .object r => return .bool (← hasProperty e r (← toKey e a))
    | _ => throwType "invalid 'in' operand"
  | op =>
    let a ← toNumeric e a
    let b ← toNumeric e b
    numericOp op a b

def unaryOp (e : Engine) (op : UnaryOp) (v : Value) : Run Value := do
  match op with
  | .void => return .undefined
  | .not => return .bool !v.truthy
  | .plus =>
    match ← toPrimitive e .number v with
    | .bigint _ => throwType "bigint argument with unary +"
    | v => return .number (← primitiveNumber v)
  | .minus =>
    match ← toNumeric e v with
    | .bigint n => return .bigint (-n)
    | .number d => return .number d.neg
    | _ => return .nan
  | .complement =>
    match ← toNumeric e v with
    | .bigint n => return .bigint (-n - 1)
    | .number d => return .ofInt (-(toInt32 d) - 1)
    | _ => return .nan

def step (increment : Bool) (v : Value) : Value :=
  match v with
  | .bigint n => .bigint (if increment then n + 1 else n - 1)
  | .number d => .number (if increment then d.add .one else d.sub .one)
  | v => v

end Patchbay.Script
