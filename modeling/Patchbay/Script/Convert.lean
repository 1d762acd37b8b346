import Patchbay.Decimal.Numeral
import Patchbay.Script.Property.Read
import Patchbay.Text.Letters
/-!
Conversions of values: to primitive values by their own methods, and from there to numbers, texts,
keys and objects.
-/
namespace Patchbay.Script

open Binary Text

def isTextBlank (c : Char) : Bool := isScriptBlank c.toNat || endsLine c.toNat

def trimBlanks (s : List Char) : List Char :=
  ((s.dropWhile isTextBlank).reverse.dropWhile isTextBlank).reverse

def naturalIn? (base : Nat) (s : List Char) : Option Nat :=
  let digit (c : Char) : Option Nat :=
    let n := c.toNat
    let d := if 0x30 ≤ n && n ≤ 0x39 then n - 0x30
      else if 0x61 ≤ n && n ≤ 0x7A then n - 0x61 + 10
      else if 0x41 ≤ n && n ≤ 0x5A then n - 0x41 + 10
      else base
    if d < base then some d else none
  if s.isEmpty then none
  else s.foldl (fun n c => n.bind fun n => (digit c).map (base * n + ·)) (some 0)

def prefixed? : List Char → Option Nat
  | '0' :: m :: rest =>
    if m = 'x' || m = 'X' then naturalIn? 16 rest
    else if m = 'o' || m = 'O' then naturalIn? 8 rest
    else if m = 'b' || m = 'B' then naturalIn? 2 rest
    else none
  | _ => none

def numberOf (s : List Char) : Double :=
  let s := trimBlanks s
  if s.isEmpty then .zero
  else
    let (negative, rest) := Decimal.splitSign s
    if rest == "Infinity".toList then if negative then Double.infinity.neg else .infinity
    else
      match prefixed? s with
      | some n => .ofInt n
      | none =>
        match Decimal.numeral? s with
        | some n => n.toDouble
        | none => .nan

def bigOf? (s : List Char) : Option Int :=
  let s := trimBlanks s
  if s.isEmpty then some 0
  else
    match prefixed? s with
    | some n => some n
    | none =>
      let (negative, digits) := Decimal.splitSign s
      (naturalIn? 10 digits).map fun n => if negative then -(n : Int) else n

inductive Hint
  | default
  | number
  | string
  deriving DecidableEq, Repr

def Hint.name : Hint → String
  | default => "default"
  | number => "number"
  | string => "string"

def firstPrimitive (e : Engine) (r : Ref) : List String → Run Value
  | [] => throwType "toPrimitive"
  | name :: rest => do
    let f ← getNamed e r name
    if ← isCallable f then
      let v ← e.call f (.object r) []
      if v.isObject then firstPrimitive e r rest else return v
    else firstPrimitive e r rest

def toPrimitive (e : Engine) (hint : Hint) (v : Value) : Run Value := do
  match v with
  | .object r =>
    let own ← getProperty e r (.symbol symbolToPrimitive)
    if own.isNullish then
      firstPrimitive e r (if hint == .string then ["toString", "valueOf"] else ["valueOf", "toString"])
    else
      let answer ← e.call own v [.ofString hint.name]
      if answer.isObject then throwType "toPrimitive" else return answer
  | v => return v

def primitiveText (v : Value) : Run CodeUnits := do
  match v with
  | .undefined => return .ofString "undefined"
  | .null => return .ofString "null"
  | .bool b => return .ofString (if b then "true" else "false")
  | .number d => return numberText d
  | .bigint n => return .ofString (toString n)
  | .string s => return s
  | .symbol _ => throwType "cannot convert symbol to string"
  | .object _ => throwType "toPrimitive"

def toText (e : Engine) (v : Value) : Run CodeUnits := do
  match v with
  | .string s => return s
  | v => primitiveText (← toPrimitive e .string v)

def primitiveNumber (v : Value) : Run Double := do
  match v with
  | .undefined => return .nan
  | .null => return .zero
  | .bool b => return if b then .one else .zero
  | .number d => return d
  | .bigint _ => throwType "cannot convert bigint to number"
  | .string s => return numberOf s.lossy.toList
  | .symbol _ => throwType "cannot convert symbol to number"
  | .object _ => throwType "toPrimitive"

def toNumber (e : Engine) (v : Value) : Run Double := do
  match v with
  | .number d => return d
  | v => primitiveNumber (← toPrimitive e .number v)

def toNumeric (e : Engine) (v : Value) : Run Value := do
  match ← toPrimitive e .number v with
  | .bigint n => return .bigint n
  | v => return .number (← primitiveNumber v)

def toBigInt (e : Engine) (v : Value) : Run Int := do
  match ← toPrimitive e .number v with
  | .bigint n => return n
  | .bool b => return if b then 1 else 0
  | .string s =>
    match bigOf? s.lossy.toList with
    | some n => return n
    | none => throwNew .syntaxFault "invalid bigint literal"
  | _ => throwType "cannot convert to bigint"

def toKey (e : Engine) (v : Value) : Run Key := do
  match v with
  | .string s => return .ofUnits s
  | v =>
    match ← toPrimitive e .string v with
    | .symbol id => return .symbol id
    | v => return .ofUnits (← primitiveText v)

/-- The integer toward zero of a number; what is no number counts as zero. -/
def toInteger (e : Engine) (v : Value) : Run Double := do
  let d ← toNumber e v
  return if d.isNaN then .zero else d.trunc

/-- A position that counts from the end when it is negative, within a length. -/
def relativeIndex (d : Double) (length : Nat) : Nat :=
  match d.datum with
  | .infinite negative => if negative then 0 else length
  | _ =>
    let n := d.toIntTrunc
    if n < 0 then (length + n).toNat else min n.toNat length

/-- The index at a position that counts from the end when it is negative, if it lies within a length. -/
def placeOf? (d : Double) (length : Nat) : Option Nat :=
  match d.datum with
  | .finite .. =>
    let n := if d.toIntTrunc < 0 then d.toIntTrunc + length else d.toIntTrunc
    if 0 ≤ n && n < length then some n.toNat else none
  | _ => none

def clampIndex (d : Double) (length : Nat) : Nat :=
  match d.datum with
  | .infinite negative => if negative then 0 else length
  | _ => min d.toIntTrunc.toNat length

def lengthLimit : Nat := 9007199254740991

def toLength (e : Engine) (v : Value) : Run Nat := do
  return clampIndex (← toInteger e v) lengthLimit

def lengthOf (e : Engine) (r : Ref) : Run Nat := do
  match (← object r).payload with
  | .list _ length _ => return length
  | _ => toLength e (← getNamed e r "length")

def wholeLimit : Nat := 10000000

def itemsOfObject (e : Engine) (r : Ref) : Run (List Value) := do
  let length ← lengthOf e r
  claimBytes (16 * length)
  if wholeLimit < length then throwNew .internal "out of memory"
  (List.range length).mapM fun n => getProperty e r (.index n)

def regexpObject (proto : Ref) (source flags : CodeUnits) : Obj :=
  { proto := some proto
    props := #[(.named "lastIndex", ⟨.data (.ofNat 0) true, false, false⟩)]
    payload := .regexp source flags }

def toObject (v : Value) : Run Ref := do
  match v with
  | .object r => return r
  | .undefined | .null => throwType "cannot convert to object"
  | v => newObject ((protoOf v).getD .object) (.wrapper v)

def typeName (v : Value) : Run String := do
  match v with
  | .undefined => return "undefined"
  | .null => return "object"
  | .bool _ => return "boolean"
  | .number _ => return "number"
  | .bigint _ => return "bigint"
  | .string _ => return "string"
  | .symbol _ => return "symbol"
  | .object _ => return if ← isCallable v then "function" else "object"

end Patchbay.Script
