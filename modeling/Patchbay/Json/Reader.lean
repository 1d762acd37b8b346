import Patchbay.Decimal.Layout
import Patchbay.Text.Units
/-!
Reading JSON with positioned complaints. A reader walks the bytes of the text once; a failure names
its cause and the byte it was noticed at, either the last one read or the next one.
-/
namespace Patchbay.Json

open Binary Text Text.Utf8

/-- A value of the wrong kind, as a complaint names it. -/
inductive Found
  | null
  | bool (value : Bool)
  | unsigned (value : Nat)
  | signed (value : Int)
  | real (value : Double)
  | string (value : String)
  | sequence
  | map
  deriving Repr

def Found.text : Found → String
  | null => "null"
  | bool value => "boolean `" ++ toString value ++ "`"
  | unsigned value => "integer `" ++ toString value ++ "`"
  | signed value => "integer `" ++ toString value ++ "`"
  | real value => "floating point `" ++ Decimal.render .settings .wide value.datum ++ "`"
  | string value => "string \"" ++ value ++ "\""
  | sequence => "sequence"
  | map => "map"

inductive Cause
  | endInValue
  | endInList
  | endInObject
  | endInString
  | expectedColon
  | expectedListEnd
  | expectedObjectEnd
  | expectedWord
  | expectedValue
  | invalidEscape
  | invalidNumber
  | numberOutOfRange
  | loneSurrogate
  | unfinishedPair
  | controlCharacter
  | keyMustBeString
  | trailingComma
  | trailingCharacters
  | duplicateField (name : String)
  | wrongType (found : Found) (expected : String)
  | wrongValue (found : Found) (expected : String)
  deriving Repr

def Cause.text : Cause → String
  | endInValue => "EOF while parsing a value"
  | endInList => "EOF while parsing a list"
  | endInObject => "EOF while parsing an object"
  | endInString => "EOF while parsing a string"
  | expectedColon => "expected `:`"
  | expectedListEnd => "expected `,` or `]`"
  | expectedObjectEnd => "expected `,` or `\x7d`"
  | expectedWord => "expected ident"
  | expectedValue => "expected value"
  | invalidEscape => "invalid escape"
  | invalidNumber => "invalid number"
  | numberOutOfRange => "number out of range"
  | loneSurrogate => "lone leading surrogate in hex escape"
  | unfinishedPair => "unexpected end of hex escape"
  | controlCharacter => "control character (\\u0000-\\u001F) found while parsing a string"
  | keyMustBeString => "key must be a string"
  | trailingComma => "trailing comma"
  | trailingCharacters => "trailing characters"
  | duplicateField name => "duplicate field `" ++ name ++ "`"
  | wrongType found expected => "invalid type: " ++ found.text ++ ", expected " ++ expected
  | wrongValue found expected => "invalid value: " ++ found.text ++ ", expected " ++ expected

/-- A cause and the number of bytes read when it was noticed. -/
structure Failure where
  cause : Cause
  index : Nat
  deriving Repr

def Failure.text (whole : Bytes) (f : Failure) : String :=
  let before := whole.take f.index
  let line := before.count 0x0A + 1
  let column := (before.reverse.takeWhile (· != 0x0A)).length
  f.cause.text ++ " at line " ++ toString line ++ " column " ++ toString column

/-- How many bytes have been read, and the bytes to come. -/
structure Cursor where
  read : Nat
  rest : Bytes
  deriving Repr

abbrev Reader := StateT Cursor (Except Failure)

def failHere {α : Type} (cause : Cause) : Reader α := fun c => .error ⟨cause, c.read⟩

def failNext {α : Type} (cause : Cause) : Reader α := fun c =>
  .error ⟨cause, if c.rest.isEmpty then c.read else c.read + 1⟩

def peek : Reader (Option UInt8) := do return (← get).rest.head?

def advance : Reader Unit :=
  modify fun c => match c.rest with
    | [] => c
    | _ :: rest => ⟨c.read + 1, rest⟩

def next : Reader (Option UInt8) := do
  let b ← peek
  advance
  return b

def isSpace (b : UInt8) : Bool := b == 0x20 || b == 0x0A || b == 0x09 || b == 0x0D

def skipSpace : Reader (Option UInt8) := do
  modify fun c =>
    let rest := c.rest.dropWhile isSpace
    ⟨c.read + (c.rest.length - rest.length), rest⟩
  peek

def isDigitByte (b : UInt8) : Bool := 0x30 ≤ b && b ≤ 0x39

def digits : Reader (List UInt8) := do
  let taken := (← get).rest.takeWhile isDigitByte
  modify fun c => ⟨c.read + taken.length, c.rest.drop taken.length⟩
  return taken

def word : List UInt8 → Reader Unit
  | [] => pure ()
  | expected :: rest => do
    match ← next with
    | none => failHere .endInValue
    | some b => if b = expected then word rest else failHere .expectedWord

def wordNull : Reader Unit := word [0x75, 0x6C, 0x6C]

def wordTrue : Reader Unit := word [0x72, 0x75, 0x65]

def wordFalse : Reader Unit := word [0x61, 0x6C, 0x73, 0x65]

def hexValue? (b : UInt8) : Option Nat :=
  if isDigitByte b then some (b.toNat - 0x30)
  else if 0x61 ≤ b && b ≤ 0x66 then some (b.toNat - 0x61 + 10)
  else if 0x41 ≤ b && b ≤ 0x46 then some (b.toNat - 0x41 + 10)
  else none

def hexEscape : Reader Nat := do
  match (← get).rest with
  | a :: b :: c :: d :: rest =>
    modify fun s => ⟨s.read + 4, rest⟩
    match hexValue? a, hexValue? b, hexValue? c, hexValue? d with
    | some a, some b, some c, some d => return ((a * 16 + b) * 16 + c) * 16 + d
    | _, _, _, _ => failHere .invalidEscape
  | rest =>
    modify fun s => ⟨s.read + rest.length, []⟩
    failHere .endInString

def plainEscape? (b : UInt8) : Option UInt8 :=
  if b == 0x22 || b == 0x5C || b == 0x2F then some b
  else if b == 0x62 then some 0x08
  else if b == 0x66 then some 0x0C
  else if b == 0x6E then some 0x0A
  else if b == 0x72 then some 0x0D
  else if b == 0x74 then some 0x09
  else none

def peekInString : Reader UInt8 := do
  match ← peek with
  | some b => return b
  | none => failHere .endInString

/-- The code point of a hexadecimal escape. Two surrogates in turn are one code point, and a
surrogate alone is refused. -/
def codePoint : Reader Nat := do
  let n ← hexEscape
  if 0xDC00 ≤ n && n ≤ 0xDFFF then failHere .loneSurrogate
  else if n < 0xD800 || 0xDBFF < n then return n
  else
    if (← peekInString) != 0x5C then
      advance
      failHere .unfinishedPair
    else
      advance
      if (← peekInString) != 0x75 then
        advance
        failHere .unfinishedPair
      else
        advance
        let m ← hexEscape
        if m < 0xDC00 || 0xDFFF < m then failHere .loneSurrogate
        else return 0x10000 + (n - 0xD800) * 0x400 + (m - 0xDC00)

def stringBytes : Nat → Reader Bytes
  | 0 => failHere .endInString
  | fuel + 1 => do
    match ← peek with
    | none => failHere .endInString
    | some 0x22 =>
      advance
      return []
    | some 0x5C =>
      advance
      match ← next with
      | none => failHere .endInString
      | some 0x75 =>
        let n ← codePoint
        return String.utf8EncodeChar (Char.ofNat n) ++ (← stringBytes fuel)
      | some b =>
        match plainEscape? b with
        | some e => return e :: (← stringBytes fuel)
        | none => failHere .invalidEscape
    | some b =>
      advance
      if b < 0x20 then failHere .controlCharacter
      else return b :: (← stringBytes fuel)

def string : Reader String := do
  return lossyString (← stringBytes ((← get).rest.length + 1))

def skipString : Nat → Reader Unit
  | 0 => failHere .endInString
  | fuel + 1 => do
    match ← peek with
    | none => failHere .endInString
    | some 0x22 => advance
    | some 0x5C =>
      advance
      match ← next with
      | none => failHere .endInString
      | some 0x75 =>
        let _ ← hexEscape
        skipString fuel
      | some b => if (plainEscape? b).isSome then skipString fuel else failHere .invalidEscape
    | some b =>
      if b < 0x20 then failHere .controlCharacter
      else
        advance
        skipString fuel

inductive Number
  | unsigned (value : Nat)
  | signed (value : Int)
  | real (value : Double)
  deriving Repr

def Number.found : Number → Found
  | unsigned value => .unsigned value
  | signed value => .signed value
  | real value => .real value

def digitsValue (start : Nat) (s : List UInt8) : Nat :=
  s.foldl (fun n b => 10 * n + (b.toNat - 0x30)) start

def powerOfTen (n : Nat) : Double := Double.ofDecimal false 1 n

/-- A significand scaled by a power of ten, in at most a few steps of double arithmetic. -/
def scaled (negative : Bool) (significand : Nat) (exponent : Int) : Reader Double := do
  let sign (d : Double) : Double := if negative then d.neg else d
  let rec go (fuel : Nat) (f : Double) (e : Int) : Reader Double :=
    match fuel with
    | 0 => return sign f
    | fuel + 1 =>
      if e.natAbs ≤ 308 then
        if 0 ≤ e then
          let f := f.mul (powerOfTen e.toNat)
          if f.isFinite then return sign f else failHere .numberOutOfRange
        else return sign (f.div (powerOfTen e.natAbs))
      else if f.isZero then return sign f
      else if 0 ≤ e then failHere .numberOutOfRange
      else go fuel (f.div (powerOfTen 308)) (e + 308)
  go 8 (Double.ofInt significand) exponent

def wordLimit : Nat := 18446744073709551615

def boundedDigits : Nat → Nat → Nat → Reader (Nat × Nat × Bool)
  | 0, value, taken => return (value, taken, false)
  | fuel + 1, value, taken => do
    match ← peek with
    | some b =>
      if isDigitByte b then
        let more := 10 * value + (b.toNat - 0x30)
        if wordLimit < more then return (value, taken, true)
        else
          advance
          boundedDigits fuel more (taken + 1)
      else return (value, taken, false)
    | none => return (value, taken, false)

/-- The exponent, from its mark on, of a significand with an exponent of its own. -/
def exponentPart (negative : Bool) (significand : Nat) (start : Int) : Reader Double := do
  advance
  let down ← do
    match ← peek with
    | some 0x2B => advance; pure false
    | some 0x2D => advance; pure true
    | _ => pure false
  match ← next with
  | none => failHere .endInValue
  | some b =>
    if !isDigitByte b then failHere .invalidNumber
    else
      let more ← digits
      let e := digitsValue (b.toNat - 0x30) more
      if 2147483647 < e then
        if significand ≠ 0 && !down then failHere .numberOutOfRange
        else return (if negative then Double.zero.neg else .zero)
      else scaled negative significand (if down then start - e else start + e)

def isExponentMark (b : Option UInt8) : Bool := b == some 0x65 || b == some 0x45

def decimalPart (negative : Bool) (significand : Nat) (start : Int) : Reader Double := do
  advance
  let room := (← get).rest.length
  let (value, taken, full) ← boundedDigits room significand 0
  if full then
    let _ ← digits
    pure ()
  else if taken = 0 then
    match ← peek with
    | some _ => failNext .invalidNumber
    | none => failNext .endInValue
  let e := start - taken
  if isExponentMark (← peek) then exponentPart negative value e else scaled negative value e

def number (negative : Bool) : Reader Number := do
  let room := (← get).rest.length
  match ← next with
  | none => failHere .endInValue
  | some b =>
    if !isDigitByte b then failHere .invalidNumber
    else
      let (value, overflow) ← do
        if b = 0x30 then
          match ← peek with
          | some b => if isDigitByte b then failNext .invalidNumber else pure (0, none)
          | none => pure (0, none)
        else
          let (value, _, full) ← boundedDigits room (b.toNat - 0x30) 0
          if full then pure (value, some (← digits).length) else pure (value, none)
      let start : Int := overflow.getD 0
      let mark ← peek
      if mark == some 0x2E then return .real (← decimalPart negative value start)
      else if isExponentMark mark then return .real (← exponentPart negative value start)
      else if overflow.isSome then return .real (← scaled negative value start)
      else if !negative then return .unsigned value
      else if value = 0 || 9223372036854775808 < value then
        return .real (Double.ofInt value).neg
      else return .signed (-value)

def skipFraction : Reader Unit := do
  if (← peek) == some 0x2E then
    advance
    let taken ← digits
    if taken.isEmpty then failNext .invalidNumber
  if isExponentMark (← peek) then
    advance
    match ← peek with
    | some 0x2B | some 0x2D => advance
    | _ => pure ()
    match ← next with
    | some b => if isDigitByte b then let _ ← digits else failHere .invalidNumber
    | none => failHere .invalidNumber

def skipNumber : Reader Unit := do
  match ← next with
  | none => failHere .invalidNumber
  | some b =>
    if !isDigitByte b then failHere .invalidNumber
    else
      let more ← if b = 0x30 then pure [] else digits
      if b = 0x30 && more.isEmpty && ((← peek).any isDigitByte) then failNext .invalidNumber
      skipFraction

mutual

def skipValue : Nat → Reader Unit
  | 0 => failHere .expectedValue
  | fuel + 1 => do
    match ← skipSpace with
    | none => failNext .endInValue
    | some 0x6E => advance; wordNull
    | some 0x74 => advance; wordTrue
    | some 0x66 => advance; wordFalse
    | some 0x2D => advance; skipNumber
    | some 0x22 =>
      advance
      skipString ((← get).rest.length + 1)
    | some 0x5B =>
      advance
      match ← skipSpace with
      | none => failNext .endInList
      | some 0x5D => advance
      | some _ => do
        skipValue fuel
        skipItems fuel
    | some 0x7B =>
      advance
      match ← skipSpace with
      | none => failNext .endInObject
      | some 0x7D => advance
      | some _ => skipFields fuel
    | some b => if isDigitByte b then skipNumber else failNext .expectedValue

def skipItems : Nat → Reader Unit
  | 0 => failHere .expectedValue
  | fuel + 1 => do
    match ← skipSpace with
    | none => failNext .endInList
    | some 0x5D => advance
    | some 0x2C => do
      advance
      skipValue fuel
      skipItems fuel
    | some _ => failNext .expectedListEnd

def skipFields : Nat → Reader Unit
  | 0 => failHere .expectedValue
  | fuel + 1 => do
    match ← skipSpace with
    | none => failNext .endInObject
    | some 0x22 => advance
    | some _ => failNext .keyMustBeString
    skipString ((← get).rest.length + 1)
    match ← skipSpace with
    | none => failNext .endInObject
    | some 0x3A => advance
    | some _ => failNext .expectedColon
    skipValue fuel
    match ← skipSpace with
    | none => failNext .endInObject
    | some 0x7D => advance
    | some 0x2C => do
      advance
      skipFields fuel
    | some _ => failNext .expectedObjectEnd

end

/-- Complains about the value that comes next, of which something else was expected. -/
def wrongType {α : Type} (expected : String) : Reader α := do
  match ← peek with
  | some 0x6E => advance; wordNull; failHere (.wrongType .null expected)
  | some 0x74 => advance; wordTrue; failHere (.wrongType (.bool true) expected)
  | some 0x66 => advance; wordFalse; failHere (.wrongType (.bool false) expected)
  | some 0x2D => do
    advance
    let n ← number true
    failHere (.wrongType n.found expected)
  | some 0x22 => do
    advance
    let s ← string
    failHere (.wrongType (.string s) expected)
  | some 0x5B => failHere (.wrongType .sequence expected)
  | some 0x7B => failHere (.wrongType .map expected)
  | some b =>
    if isDigitByte b then do
      let n ← number false
      failHere (.wrongType n.found expected)
    else failNext .expectedValue
  | none => failNext .expectedValue

def valueStart : Reader UInt8 := do
  match ← skipSpace with
  | some b => return b
  | none => failNext .endInValue

def optional {α : Type} (value : Reader α) : Reader (Option α) := do
  match ← skipSpace with
  | some 0x6E =>
    advance
    wordNull
    return none
  | _ => return some (← value)

def bool : Reader Bool := do
  match ← valueStart with
  | 0x74 => advance; wordTrue; return true
  | 0x66 => advance; wordFalse; return false
  | _ => wrongType "a boolean"

def text (expected : String) : Reader String := do
  if (← valueStart) == 0x22 then
    advance
    string
  else wrongType expected

def wordSize : Reader UInt64 := do
  let b ← valueStart
  let n ← if b == 0x2D then do advance; number true
    else if isDigitByte b then number false
    else wrongType "usize"
  match n with
  | .unsigned value => return value.toUInt64
  | .signed value => failHere (.wrongValue (.signed value) "usize")
  | .real value => failHere (.wrongType (.real value) "usize")

def moreItems (first : Bool) : Reader Bool := do
  match ← skipSpace with
  | none => failNext .endInList
  | some 0x5D => return false
  | some b =>
    if first then return true
    else if b == 0x2C then
      advance
      match ← skipSpace with
      | some 0x5D => failNext .trailingComma
      | some _ => return true
      | none => failNext .endInValue
    else failNext .expectedListEnd

def moreKeys (first : Bool) : Reader Bool := do
  match ← skipSpace with
  | none => failNext .endInObject
  | some 0x7D => return false
  | some b =>
    if first then
      if b == 0x22 then return true else failNext .keyMustBeString
    else if b == 0x2C then
      advance
      match ← skipSpace with
      | some 0x22 => return true
      | some 0x7D => failNext .trailingComma
      | some _ => failNext .keyMustBeString
      | none => failNext .endInValue
    else failNext .expectedObjectEnd

def endList : Reader Unit := do
  match ← skipSpace with
  | some 0x5D => advance
  | some 0x2C =>
    advance
    match ← skipSpace with
    | some 0x5D => failNext .trailingComma
    | _ => failNext .trailingCharacters
  | some _ => failNext .trailingCharacters
  | none => failNext .endInList

def endObject : Reader Unit := do
  match ← skipSpace with
  | some 0x7D => advance
  | some 0x2C => failNext .trailingComma
  | some _ => failNext .trailingCharacters
  | none => failNext .endInObject

def colon : Reader Unit := do
  match ← skipSpace with
  | some 0x3A => advance
  | some _ => failNext .expectedColon
  | none => failNext .endInObject

def items {α : Type} (item : Reader α) (first : Bool) : Nat → Reader (List α)
  | 0 => failHere .endInList
  | fuel + 1 => do
    if ← moreItems first then
      let head ← item
      return head :: (← items item false fuel)
    else return []

def list {α : Type} (item : Reader α) : Reader (List α) := do
  if (← valueStart) == 0x5B then
    advance
    let all ← items item true ((← get).rest.length + 1)
    endList
    return all
  else wrongType "a sequence"

def repeated {α : Type} (name : String) : Reader α := do
  match ← skipSpace with
  | some 0x7D => advance
  | _ => pure ()
  failHere (.duplicateField name)

def whole {α : Type} (value : Reader α) (s : Bytes) : Except Failure α := do
  let reading : Reader α := do
    let a ← value
    match ← skipSpace with
    | none => return a
    | some _ => failNext .trailingCharacters
  let (a, _) ← reading.run ⟨0, s⟩
  return a

end Patchbay.Json
