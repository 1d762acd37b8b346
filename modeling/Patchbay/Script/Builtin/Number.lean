import Patchbay.Script.Builtin.List
/-!
Functions on numbers, truth values, big integers and symbols, and the mathematical functions.
-/
namespace Patchbay.Script

open Binary Text

def digitChar (n : Nat) : Char := Char.ofNat (if n < 10 then 0x30 + n else 0x61 + n - 10)

def naturalText (base : Nat) : Nat → Nat → List Char
  | 0, _ => []
  | fuel + 1, n =>
    if n < base then [digitChar n] else naturalText base fuel (n / base) ++ [digitChar (n % base)]

def integerText (base : Nat) (n : Int) : CodeUnits :=
  let digits := naturalText base (n.natAbs.log2 + 1) n.natAbs
  .ofChars (if n < 0 then '-' :: digits else digits)

def fractionText (base den : Nat) : Nat → Nat → List Char
  | 0, _ => []
  | fuel + 1, m =>
    if m = 0 then [] else digitChar (m * base / den) :: fractionText base den fuel (m * base % den)

def textToBase (base : Nat) (d : Double) : CodeUnits :=
  match d.datum with
  | .finite negative m q =>
    if base = 10 then numberText d
    else
      let den := Nat.pow 2 (-q).toNat
      let whole := m * Nat.pow 2 q.toNat / den
      let part := fractionText base den 52 (m * Nat.pow 2 q.toNat % den)
      let digits := naturalText base (whole.log2 + 1) whole
      let text := if part.isEmpty then digits else digits ++ '.' :: part
      .ofChars (if negative && m != 0 then '-' :: text else text)
  | _ => numberText d

/-- The text of a number with some digits behind the point; a tie goes away from zero. -/
def fixedText (places : Nat) (d : Double) : CodeUnits :=
  match d.datum with
  | .finite negative m q =>
    let den := Nat.pow 2 (-q).toNat
    let scaled := (2 * m * Nat.pow 2 q.toNat * Nat.pow 10 places + den) / (2 * den)
    let digits := (toString scaled).toList
    let digits := List.replicate (places + 1 - digits.length) '0' ++ digits
    let whole := digits.take (digits.length - places)
    let part := digits.drop (digits.length - places)
    let text := if part.isEmpty then whole else whole ++ '.' :: part
    .ofChars (if negative && m != 0 then '-' :: text else text)
  | _ => numberText d

def decimalStart (s : List Char) : List Char :=
  let (sign, s) := match s with
    | '-' :: rest => (['-'], rest)
    | '+' :: rest => (['+'], rest)
    | s => ([], s)
  if "Infinity".toList.isPrefixOf s then sign ++ "Infinity".toList
  else
    let whole := s.takeWhile Decimal.isDigit
    let rest := s.dropWhile Decimal.isDigit
    let (point, rest) := match rest with
      | '.' :: rest => ('.' :: rest.takeWhile Decimal.isDigit, rest.dropWhile Decimal.isDigit)
      | rest => ([], rest)
    let exponent := match rest with
      | c :: rest =>
        if c = 'e' || c = 'E' then
          let (mark, digits) := match rest with
            | '-' :: rest => (['-'], rest)
            | '+' :: rest => (['+'], rest)
            | rest => ([], rest)
          let digits := digits.takeWhile Decimal.isDigit
          if digits.isEmpty then [] else c :: mark ++ digits
        else []
      | [] => []
    if whole.isEmpty && point.length < 2 then [] else sign ++ whole ++ point ++ exponent

def parseDecimal (s : CodeUnits) : Double :=
  let start := decimalStart (trimBlanks s.lossy.toList)
  if start.isEmpty then .nan else numberOf start

/-- The integer that the start of a text writes to a base; base zero is found from the text. -/
def parseInteger (base : Int) (s : CodeUnits) : Double :=
  let (negative, digits) := Decimal.splitSign (trimBlanks s.lossy.toList)
  let marked := match digits with
    | '0' :: c :: _ => c = 'x' || c = 'X'
    | _ => false
  let (base, digits) :=
    if base = 0 then (if marked then (16, digits.drop 2) else (10, digits))
    else (base, if base = 16 && marked then digits.drop 2 else digits)
  if base < 2 || 36 < base then .nan
  else
    let digits := digits.takeWhile fun c => (naturalIn? base.toNat [c]).isSome
    match naturalIn? base.toNat digits with
    | none => .nan
    | some n => if negative then (Double.ofInt n).neg else .ofInt n

namespace NumberFn

def statics : List (String × Nat × NumberFn) :=
  [("isInteger", 1, isInteger), ("isFinite", 1, isFinite), ("isNaN", 1, isNaN),
    ("isSafeInteger", 1, isSafeInteger)]

def shared : List (String × Nat × NumberFn) := [("parseFloat", 1, parseFloat), ("parseInt", 2, parseInt)]

def globals : List (String × Nat × NumberFn) :=
  [("isNaN", 1, globalIsNaN), ("isFinite", 1, globalIsFinite)]

def methods : List (String × Nat × NumberFn) :=
  [("toFixed", 1, toFixed), ("toString", 1, toString), ("toLocaleString", 0, toLocaleString),
    ("valueOf", 0, valueOf)]

end NumberFn

def ownNumber (v : Value) : Run Double := do
  match v with
  | .number d => return d
  | .object r =>
    match ← payload r with
    | .wrapper (.number d) => return d
    | _ => throwType "not a number"
  | _ => throwType "not a number"

def isWhole (v : Value) : Bool :=
  match v with
  | .number d => d.toInt?.isSome
  | _ => false

def baseArg (i : Invocation) : Run Nat := do
  match i.arg 0 with
  | .undefined => return 10
  | v =>
    let base := (← toInteger i.engine v).toIntTrunc
    if 2 ≤ base && base ≤ 36 then return base.toNat
    else throwRange "radix must be between 2 and 36"

def makeNumber (i : Invocation) : Run Value := do
  let d ← match i.args with
    | [] => pure Double.zero
    | v :: _ =>
      match ← toNumeric i.engine v with
      | .bigint n => pure (.ofInt n)
      | .number d => pure d
      | _ => pure .nan
  if i.target.isSome then i.make .number (.wrapper (.number d)) else return .number d

def NumberFn.run (f : NumberFn) (i : Invocation) : Run Value := do
  let e := i.engine
  match f with
  | make => makeNumber i
  | isInteger => return .bool (isWhole (i.arg 0))
  | isFinite =>
    match i.arg 0 with
    | .number d => return .bool d.isFinite
    | _ => return .bool false
  | isNaN =>
    match i.arg 0 with
    | .number d => return .bool d.isNaN
    | _ => return .bool false
  | isSafeInteger =>
    match i.arg 0 with
    | .number d => return .bool (d.toInt?.any fun n => n.natAbs ≤ 9007199254740991)
    | _ => return .bool false
  | parseFloat => return .number (parseDecimal (← toText e (i.arg 0)))
  | parseInt =>
    let s ← toText e (i.arg 0)
    return .number (parseInteger (toInt32 (← toNumber e (i.arg 1))) s)
  | toString =>
    let d ← ownNumber i.this
    return .string (textToBase (← baseArg i) d)
  | toLocaleString => return .string (numberText (← ownNumber i.this))
  | toFixed =>
    let d ← ownNumber i.this
    let places ← toInteger e (i.arg 0)
    if Double.lt places .zero || Double.lt (.ofInt 100) places then throwRange "invalid number of digits"
    if Double.le (.ofInt (Nat.pow 10 21)) d.abs then return .string (numberText d)
    else return .string (fixedText places.toIntTrunc.toNat d)
  | valueOf => return .number (← ownNumber i.this)
  | globalIsNaN => return .bool (← toNumber e (i.arg 0)).isNaN
  | globalIsFinite => return .bool (← toNumber e (i.arg 0)).isFinite

def BooleanFn.methods : List (String × Nat × BooleanFn) := [("toString", 0, toString), ("valueOf", 0, valueOf)]

def ownBool (v : Value) : Run Bool := do
  match v with
  | .bool b => return b
  | .object r =>
    match ← payload r with
    | .wrapper (.bool b) => return b
    | _ => throwType "not a boolean"
  | _ => throwType "not a boolean"

def BooleanFn.run (f : BooleanFn) (i : Invocation) : Run Value := do
  match f with
  | make =>
    let b := (i.arg 0).truthy
    if i.target.isSome then i.make .boolean (.wrapper (.bool b)) else return .bool b
  | toString => return .ofString (if ← ownBool i.this then "true" else "false")
  | valueOf => return .bool (← ownBool i.this)

def BigIntFn.statics : List (String × Nat × BigIntFn) := [("asIntN", 2, asIntN), ("asUintN", 2, asUintN)]

def BigIntFn.methods : List (String × Nat × BigIntFn) :=
  [("toString", 0, toString), ("toLocaleString", 0, toString), ("valueOf", 0, valueOf)]

def ownBig (v : Value) : Run Int := do
  match v with
  | .bigint n => return n
  | .object r =>
    match ← payload r with
    | .wrapper (.bigint n) => return n
    | _ => throwType "not a BigInt"
  | _ => throwType "not a BigInt"

def bitsArg (i : Invocation) : Run Nat := do
  let d ← toInteger i.engine (i.arg 0)
  match d.toInt? with
  | some n => if 0 ≤ n && n ≤ lengthLimit then return n.toNat else throwRange "invalid array index"
  | none => throwRange "invalid array index"

def cutToBits (signed : Bool) (bits : Nat) (n : Int) : Int :=
  if bits = 0 then 0
  else if n.natAbs.log2 + 2 ≤ bits && (signed || 0 ≤ n) then n
  else if bigLimit < bits then n
  else if signed then wrapSigned bits n else wrapUnsigned bits n

def makeBig (i : Invocation) : Run Value := do
  match ← toPrimitive i.engine .number (i.arg 0) with
  | .number d =>
    match d.toInt? with
    | some n => return .bigint n
    | none =>
      if d.isFinite then throwRange "cannot convert to bigint: not an integer"
      else throwRange "cannot convert NaN or Infinity to bigint"
  | v => return .bigint (← toBigInt i.engine v)

def BigIntFn.run (f : BigIntFn) (i : Invocation) : Run Value := do
  match f with
  | make => makeBig i
  | asIntN =>
    let bits ← bitsArg i
    return .bigint (cutToBits true bits (← toBigInt i.engine (i.arg 1)))
  | asUintN =>
    let bits ← bitsArg i
    return .bigint (cutToBits false bits (← toBigInt i.engine (i.arg 1)))
  | toString =>
    let n ← ownBig i.this
    return .string (integerText (← baseArg i) n)
  | valueOf => return .bigint (← ownBig i.this)

def SymbolFn.statics : List (String × Nat × SymbolFn) := [("for", 1, for_), ("keyFor", 1, keyFor)]

def SymbolFn.methods : List (String × Nat × SymbolFn) := [("toString", 0, toString), ("valueOf", 0, valueOf)]

def ownSymbol (v : Value) : Run Nat := do
  match v with
  | .symbol id => return id
  | .object r =>
    match ← payload r with
    | .wrapper (.symbol id) => return id
    | _ => throwType "not a symbol"
  | _ => throwType "not a symbol"

def SymbolFn.run (f : SymbolFn) (i : Invocation) : Run Value := do
  let e := i.engine
  match f with
  | make =>
    if i.target.isSome then throwType "not a constructor"
    match i.arg 0 with
    | .undefined => return .symbol (← newSymbol none)
    | v => return .symbol (← newSymbol (some (← toText e v)))
  | for_ =>
    let name ← toText e (i.arg 0)
    match (← get).registry.lookup name with
    | some id => return .symbol id
    | none =>
      let id ← newSymbol (some name)
      modify fun m => { m with registry := (name, id) :: m.registry }
      return .symbol id
  | keyFor =>
    match i.arg 0 with
    | .symbol id =>
      return ((← get).registry.find? fun entry => entry.2 == id).map (fun entry => .string entry.1)
        |>.getD .undefined
    | _ => throwType "not a symbol"
  | toString =>
    let id ← ownSymbol i.this
    let d := ((← get).symbols[id]?.join).getD default
    return .string (.ofString "Symbol(" ++ d ++ .ofString ")")
  | valueOf | toPrimitive => return .symbol (← ownSymbol i.this)
  | description =>
    let id ← ownSymbol i.this
    return (((← get).symbols[id]?.join).map .string).getD .undefined

namespace MathFn

def members : List (String × Nat × MathFn) :=
  [("min", 2, min), ("max", 2, max), ("abs", 1, abs), ("floor", 1, floor), ("ceil", 1, ceil),
    ("round", 1, round), ("sqrt", 1, sqrt), ("acos", 1, acos), ("asin", 1, asin), ("atan", 1, atan),
    ("atan2", 2, atan2), ("cos", 1, cos), ("exp", 1, exp), ("log", 1, log), ("pow", 2, pow),
    ("sin", 1, sin), ("tan", 1, tan), ("trunc", 1, trunc), ("sign", 1, sign), ("cosh", 1, cosh),
    ("sinh", 1, sinh), ("tanh", 1, tanh), ("expm1", 1, expm1), ("log1p", 1, log1p), ("log2", 1, log2),
    ("log10", 1, log10), ("cbrt", 1, cbrt), ("hypot", 2, hypot), ("random", 0, random),
    ("fround", 1, fround), ("imul", 2, imul), ("clz32", 1, clz32)]

def constants : List (String × Float) :=
  [("E", 2.718281828459045), ("LN10", 2.302585092994046), ("LN2", 0.6931471805599453),
    ("LOG2E", 1.4426950408889634), ("LOG10E", 0.4342944819032518), ("PI", 3.141592653589793),
    ("SQRT1_2", 0.7071067811865476), ("SQRT2", 1.4142135623730951)]

end MathFn

def lesser (a b : Double) : Double :=
  if a.isNaN || b.isNaN then .nan
  else if a.isZero && b.isZero then (if a.isNegative then a else b)
  else if b.lt a then b else a

def greater (a b : Double) : Double := (lesser a.neg b.neg).neg

def roundHalfUp (d : Double) : Double :=
  match d.datum with
  | .finite negative m q =>
    if 0 ≤ q then d
    else
      let den := Nat.pow 2 (-q).toNat
      let value : Int := if negative then -(m : Int) else m
      let n := Int.fdiv (2 * value + den) (2 * den)
      if n = 0 then (if negative then Double.zero.neg else .zero) else .ofInt n
  | _ => d

def signOf (d : Double) : Double :=
  if d.isNaN || d.isZero then d else if d.isNegative then Double.one.neg else .one

def MathFn.run (f : MathFn) (i : Invocation) : Run Value := do
  let e := i.engine
  let through (g : Float → Float) : Run Value := do
    return .number (.ofFloat (g (← toNumber e (i.arg 0)).toFloat))
  let onDouble (g : Double → Double) : Run Value := do
    return .number (g (← toNumber e (i.arg 0)))
  match f with
  | abs => onDouble Double.abs
  | floor => onDouble Double.floor
  | ceil => onDouble Double.ceil
  | round => onDouble roundHalfUp
  | trunc => onDouble Double.trunc
  | sign => onDouble signOf
  | fround => onDouble fun d => (Single.ofDouble d).toDouble
  | sqrt => through Float.sqrt
  | cbrt => through Float.cbrt
  | exp => through Float.exp
  | expm1 => through fun x => if x.abs < 1e-5 then x + x * x / 2 else Float.exp x - 1
  | log => through Float.log
  | log1p => through fun x => if x.abs < 1e-5 then x - x * x / 2 else Float.log (1 + x)
  | log2 => through Float.log2
  | log10 => through Float.log10
  | sin => through Float.sin
  | cos => through Float.cos
  | tan => through Float.tan
  | asin => through Float.asin
  | acos => through Float.acos
  | atan => through Float.atan
  | sinh => through Float.sinh
  | cosh => through Float.cosh
  | tanh => through Float.tanh
  | atan2 =>
    let y ← toNumber e (i.arg 0)
    return .number (.ofFloat (Float.atan2 y.toFloat (← toNumber e (i.arg 1)).toFloat))
  | pow =>
    let a ← toNumber e (i.arg 0)
    return .number (power a (← toNumber e (i.arg 1)))
  | max => return .number ((← i.args.mapM (toNumber e)).foldl greater Double.infinity.neg)
  | min => return .number ((← i.args.mapM (toNumber e)).foldl lesser .infinity)
  | hypot =>
    let all : List Double ← i.args.mapM (toNumber e)
    return .number (.ofFloat (all.foldl (fun (sum : Float) d => sum + d.toFloat * d.toFloat) 0).sqrt)
  | imul =>
    let a ← toNumber e (i.arg 0)
    return .number (.ofInt (wrapSigned 32 (toInt32 a * toInt32 (← toNumber e (i.arg 1)))))
  | clz32 =>
    let n := toUint32 (← toNumber e (i.arg 0))
    return .ofInt (if n = 0 then 32 else 31 - n.toNat.log2)
  | random => return .number .zero

end Patchbay.Script
