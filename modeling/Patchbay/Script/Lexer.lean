import Patchbay.Script.Token
/-!
Reading tokens. Every function here goes forward through the script and is bounded by what is left of
it; a string or a comment that never ends is complained about at its start.
-/
namespace Patchbay.Script.Lexer

open Binary Text

private def isDigit (n : Nat) : Bool := 0x30 ≤ n && n ≤ 0x39

def digit? (n : Nat) : Option Nat :=
  if isDigit n then some (n - 0x30)
  else if 0x61 ≤ n && n ≤ 0x7A then some (n - 0x61 + 10)
  else if 0x41 ≤ n && n ≤ 0x5A then some (n - 0x41 + 10)
  else none

def digitIn? (base n : Nat) : Option Nat := (digit? n).filter (· < base)

/-- The end of a block comment whose opening has been passed; the flag says whether a line ended. -/
def blockComment (s : Source) : Nat → Cursor → Bool → Option (Cursor × Bool)
  | 0, _, _ => none
  | fuel + 1, c, line =>
    let n := s.code c.index
    if n = 0 then none
    else if n = 0x2A && s.code (c.index + 1) = 0x2F then some (c.forward 2, line)
    else if n = 0x0A then blockComment s fuel (c.nextLine 1) true
    else blockComment s fuel (c.forward 1) (line || endsLine n)

def lineComment (s : Source) : Nat → Cursor → Cursor
  | 0, c => c
  | fuel + 1, c =>
    let n := s.code c.index
    if n = 0 || endsLine n then c else lineComment s fuel (c.forward 1)

def blanks (s : Source) : Nat → Cursor → Bool → Except Complaint (Cursor × Bool)
  | 0, c, line => .ok (c, line)
  | fuel + 1, c, line =>
    let n := s.code c.index
    let second := s.code (c.index + 1)
    let startsComment := n = 0x2F && second = 0x2F ||
      n = 0x3C && second = 0x21 && s.code (c.index + 2) = 0x2D && s.code (c.index + 3) = 0x2D ||
      line && n = 0x2D && second = 0x2D && s.code (c.index + 2) = 0x3E
    if n = 0x0D && second = 0x0A then blanks s fuel (c.nextLine 2) true
    else if n ≠ 0 && endsLine n then blanks s fuel (c.nextLine 1) true
    else if isScriptBlank n then blanks s fuel (c.forward 1) line
    else if startsComment then blanks s fuel (lineComment s s.size c) line
    else if n = 0x2F && second = 0x2A then
      match blockComment s (s.size + 1) (c.forward 2) line with
      | some (c, line) => blanks s fuel c line
      | none => .error (.wrong "unexpected end of comment" c.place)
    else .ok (c, line)

inductive Escape
  | code (n : Nat) (next : Nat)
  | malformed
  | plain

def hexDigits (s : Source) : Nat → Nat → Nat → Escape
  | 0, i, value => .code value i
  | count + 1, i, value =>
    match digitIn? 16 (s.code i) with
    | some d => hexDigits s count (i + 1) (value * 16 + d)
    | none => .malformed

def bracedHex (s : Source) : Nat → Nat → Nat → Escape
  | 0, _, _ => .malformed
  | fuel + 1, i, value =>
    match digitIn? 16 (s.code i) with
    | none => .malformed
    | some d =>
      let value := value * 16 + d
      if 0x10FFFF < value then .malformed
      else if s.code (i + 1) = 0x7D then .code value (i + 2)
      else bracedHex s fuel (i + 1) value

def octal (s : Source) (i : Nat) : Escape :=
  let first := s.code i - 0x30
  match digitIn? 8 (s.code (i + 1)) with
  | none => .code first (i + 1)
  | some second =>
    let value := first * 8 + second
    if 32 ≤ value then .code value (i + 2)
    else
      match digitIn? 8 (s.code (i + 2)) with
      | none => .code value (i + 2)
      | some third => .code (value * 8 + third) (i + 3)

def escape (s : Source) (i : Nat) : Escape :=
  let n := s.code i
  if n = 0x62 then .code 0x08 (i + 1)
  else if n = 0x66 then .code 0x0C (i + 1)
  else if n = 0x6E then .code 0x0A (i + 1)
  else if n = 0x72 then .code 0x0D (i + 1)
  else if n = 0x74 then .code 0x09 (i + 1)
  else if n = 0x76 then .code 0x0B (i + 1)
  else if n = 0x78 || n = 0x75 then
    if s.code (i + 1) = 0x7B then bracedHex s 16 (i + 2) 0
    else hexDigits s (if n = 0x78 then 2 else 4) (i + 1) 0
  else if 0x30 ≤ n && n ≤ 0x37 then octal s i
  else .plain

inductive Continuation
  | code (n : Nat) (next : Cursor)
  | skip (next : Cursor)
  | wrong (message : String)

def endOfString : String := "unexpected end of string"

def invalidText : String := "invalid UTF-8 sequence"

def malformedEscape : String := "malformed escape sequence in string literal"

/-- The escape at a cursor behind its backslash. A line that ends there is passed over. -/
def escaped (s : Source) (strict template : Bool) (c : Cursor) : Continuation :=
  let n := s.code c.index
  if n = 0 then .wrong endOfString
  else if n = 0x0D && s.code (c.index + 1) = 0x0A then .skip (c.nextLine 2)
  else if n = 0x0A || n = 0x0D then .skip (c.nextLine 1)
  else if n = 0x2028 || n = 0x2029 then .skip (c.forward 1)
  else if n = Source.invalid then .wrong invalidText
  else if isDigit n && (strict || template) then
    if n = 0x30 && !isDigit (s.code (c.index + 1)) then .code 0 (c.forward 1)
    else if 0x38 ≤ n || template then .wrong malformedEscape
    else .wrong "octal escape sequences are not allowed in strict mode"
  else if 0x80 ≤ n then .code n (c.forward 1)
  else
    match escape s c.index with
    | .code value next => .code value { c with index := next }
    | .malformed => .wrong malformedEscape
    | .plain => .code n (c.forward 1)

def stringCodes (s : Source) (strict : Bool) (quote : Nat) :
    Nat → Cursor → List Nat → Except String (List Nat × Cursor)
  | 0, _, _ => .error endOfString
  | fuel + 1, c, codes =>
    let n := s.code c.index
    if n = 0 || n = 0x0A || n = 0x0D then .error endOfString
    else if n = quote then .ok (codes, c.forward 1)
    else if n = 0x5C then
      match escaped s strict false (c.forward 1) with
      | .code value next => stringCodes s strict quote fuel next (value :: codes)
      | .skip next => stringCodes s strict quote fuel next codes
      | .wrong message => .error message
    else if n = Source.invalid then .error invalidText
    else stringCodes s strict quote fuel (c.forward 1) (n :: codes)

/-- The code points of a part of a template, last first, and whether it is the last part. Behind a
malformed escape there are none, but the part goes on. -/
def templateCodes (s : Source) :
    Nat → Cursor → Option (List Nat) → Except String (Option (List Nat) × Bool × Cursor)
  | 0, _, _ => .error endOfString
  | fuel + 1, c, codes =>
    let n := s.code c.index
    let add (n : Nat) : Option (List Nat) := codes.map (n :: ·)
    if n = 0 then .error endOfString
    else if n = 0x60 then .ok (codes, true, c.forward 1)
    else if n = 0x24 && s.code (c.index + 1) = 0x7B then .ok (codes, false, c.forward 2)
    else if n = 0x5C then
      match escaped s true true (c.forward 1) with
      | .code value next => templateCodes s fuel next (add value)
      | .skip next => templateCodes s fuel next codes
      | .wrong message =>
        if message == malformedEscape then templateCodes s fuel (c.forward 2) none else .error message
    else if n = 0x0D && s.code (c.index + 1) = 0x0A then templateCodes s fuel (c.nextLine 2) (add 0x0A)
    else if n = 0x0A || n = 0x0D then templateCodes s fuel (c.nextLine 1) (add 0x0A)
    else if n = Source.invalid then .error invalidText
    else templateCodes s fuel (c.forward 1) (add n)

def nameRest (s : Source) : Nat → Nat → List Char → Bool → List Char × Nat × Bool
  | 0, i, name, escaped => (name, i, escaped)
  | fuel + 1, i, name, escaped =>
    let n := s.code i
    if n = 0x5C && s.code (i + 1) = 0x75 then
      match escape s (i + 1) with
      | .code value next =>
        if continuesName value then nameRest s fuel next (Char.ofNat value :: name) true
        else (name, i, escaped)
      | _ => (name, i, escaped)
    else if n ≠ Source.invalid && continuesName n then
      nameRest s fuel (i + 1) (Char.ofNat n :: name) escaped
    else (name, i, escaped)

/-- The name at an index, where it ends, and whether it is written with escapes. -/
def name? (s : Source) (i : Nat) : Option (String × Nat × Bool) :=
  let read (first next : Nat) (escaped : Bool) : Option (String × Nat × Bool) :=
    if startsName first then
      let (name, stop, escaped) := nameRest s s.size next [Char.ofNat first] escaped
      some (String.ofList name.reverse, stop, escaped)
    else none
  let n := s.code i
  if n = 0x5C && s.code (i + 1) = 0x75 then
    match escape s (i + 1) with
    | .code value next => read value next true
    | _ => none
  else if n = Source.invalid then none
  else read n (i + 1) false

/-- Digits of a base, which may be parted by single low lines: their value, their number and where
they end. -/
def digits (s : Source) (base : Nat) : Nat → Nat → Nat → Nat → Nat × Nat × Nat
  | 0, i, value, count => (value, count, i)
  | fuel + 1, i, value, count =>
    match digitIn? base (s.code i) with
    | some d => digits s base fuel (i + 1) (value * base + d) (count + 1)
    | none =>
      if s.code i = 0x5F && 0 < count && (digitIn? base (s.code (i + 1))).isSome then
        digits s base fuel (i + 1) value count
      else (value, count, i)

def exponent (s : Source) (i : Nat) : Int × Nat :=
  let mark := s.code i
  if mark = 0x65 || mark = 0x45 then
    let sign := s.code (i + 1)
    let first := if sign = 0x2B || sign = 0x2D then i + 2 else i + 1
    let (value, count, stop) := digits s 10 s.size first 0 0
    if count = 0 then (0, i) else (if sign = 0x2D then -(value : Int) else value, stop)
  else (0, i)

def decimal (s : Source) (i : Nat) : TokenKind × Nat :=
  let (whole, count, stop) := digits s 10 s.size i 0 0
  if s.code stop = 0x6E && 0 < count then (.bigint whole, stop + 1)
  else
    let (all, places, stop) :=
      if s.code stop = 0x2E then
        let (all, total, stop) := digits s 10 s.size (stop + 1) whole 0
        (all, total, stop)
      else (whole, 0, stop)
    let (e, stop) := exponent s stop
    (.number (Double.ofDecimal false all (e - places)), stop)

def based (s : Source) (base i : Nat) : Option (TokenKind × Nat) :=
  let (value, count, stop) := digits s base s.size i 0 0
  if count = 0 then none
  else if s.code stop = 0x6E then some (.bigint value, stop + 1)
  else some (.number (.ofInt value), stop)

def allOctal (s : Source) : Nat → Nat → Bool
  | 0, _ => true
  | fuel + 1, i =>
    let n := s.code i
    if 0x30 ≤ n && n ≤ 0x37 then allOctal s fuel (i + 1) else !isDigit n

def number (s : Source) (strict : Bool) (i : Nat) : Except String (TokenKind × Nat) :=
  let second := s.code (i + 1)
  let invalid := "invalid number literal"
  let read : Option (TokenKind × Nat) :=
    if s.code i = 0x30 then
      if second = 0x78 || second = 0x58 then based s 16 (i + 2)
      else if second = 0x6F || second = 0x4F then based s 8 (i + 2)
      else if second = 0x62 || second = 0x42 then based s 2 (i + 2)
      else if isDigit second && allOctal s s.size (i + 1) then
        let (value, _, stop) := digits s 8 s.size i 0 0
        some (.number (.ofInt value), stop)
      else if second = 0x5F then none
      else some (decimal s i)
    else some (decimal s i)
  if s.code i = 0x30 && isDigit second && strict then
    .error "octal literals are deprecated in strict mode"
  else
    match read with
    | none => .error invalid
    | some (kind, stop) =>
      if s.code stop ≠ Source.invalid && continuesName (s.code stop) then .error invalid
      else .ok (kind, stop)

def longMarks : List String :=
  [">>>=", "...", "===", "!==", "**=", "<<=", ">>=", ">>>", "&&=", "||=", "??=", "=>", "==", "!=",
    "<=", ">=", "&&", "||", "??", "?.", "++", "--", "+=", "-=", "*=", "/=", "%=", "&=", "|=", "^=",
    "<<", ">>", "**"]

def mark (s : Source) (i : Nat) : String :=
  let fits (m : String) : Bool :=
    s.slice i (i + m.length) == m && !(m == "?." && isDigit (s.code (i + 2)))
  (longMarks.find? fits).getD (s.slice i (i + 1))

/-- The text of a template as it is written; every end of a line in it is one character. -/
def rawText : List Char → List Char
  | '\r' :: '\n' :: rest => '\n' :: rawText rest
  | '\r' :: rest => '\n' :: rawText rest
  | c :: rest => c :: rawText rest
  | [] => []

def template (s : Source) (start : Cursor) (afterLine : Bool) (c : Cursor) : Except Complaint Token :=
  match templateCodes s (s.size + 1) c (some []) with
  | .error message => .error (.wrong message start.place)
  | .ok (codes, last, stop) =>
    let raw := s.slice c.index (stop.index - if last then 1 else 2)
    let cooked := codes.map fun codes => CodeUnits.ofCodePoints codes.reverse
    .ok ⟨.template cooked (.ofChars (rawText raw.toList)) last, start.index, start.place, afterLine, stop⟩

def tokenAt (s : Source) (strict : Bool) (c : Cursor) (afterLine : Bool) : Except Complaint Token :=
  let n := s.code c.index
  let second := s.code (c.index + 1)
  let token (kind : TokenKind) (stop : Nat) : Except Complaint Token :=
    .ok ⟨kind, c.index, c.place, afterLine, { c with index := stop }⟩
  let wrong (message : String) : Except Complaint Token := .error (.wrong message c.place)
  if n = 0 then token .finish c.index
  else if n = 0x22 || n = 0x27 then
    match stringCodes s strict n (s.size + 1) (c.forward 1) [] with
    | .ok (codes, stop) =>
      .ok ⟨.string (.ofCodePoints codes.reverse), c.index, c.place, afterLine, stop⟩
    | .error message => wrong message
  else if n = 0x60 then template s c afterLine (c.forward 1)
  else if isDigit n || (n = 0x2E && isDigit second) then
    match number s strict c.index with
    | .ok (kind, stop) => token kind stop
    | .error message => wrong message
  else if n = 0x23 then
    match name? s (c.index + 1) with
    | some (text, stop, _) => token (.privateName text) stop
    | none => wrong "invalid first character of private name"
  else
    match name? s c.index with
    | some (text, stop, escaped) => token (.word text escaped) stop
    | none =>
      if 0x80 ≤ n then wrong "unexpected character"
      else
        let text := mark s c.index
        token (.mark text) (c.index + text.length)

def token (s : Source) (strict : Bool) (c : Cursor) : Except Complaint Token := do
  let (c, afterLine) ← blanks s (s.size + 1) c (c.index = 0)
  tokenAt s strict c afterLine

/-- The rest of a pattern between slashes, last first; the flag says whether a class is open. -/
def regexpBody (s : Source) : Nat → Nat → Bool → Except String Nat
  | 0, _, _ => .error "unexpected end of regexp"
  | fuel + 1, i, inClass =>
    let n := s.code i
    if n = 0 then .error "unexpected end of regexp"
    else if endsLine n then .error "unexpected line terminator in regexp"
    else if n = 0x2F && !inClass then .ok i
    else if n = 0x5B then regexpBody s fuel (i + 1) true
    else if n = 0x5D then regexpBody s fuel (i + 1) false
    else if n = 0x5C then
      if endsLine (s.code (i + 1)) then .error "unexpected line terminator in regexp"
      else regexpBody s fuel (i + 2) inClass
    else regexpBody s fuel (i + 1) inClass

def flagsStop (s : Source) : Nat → Nat → Nat
  | 0, i => i
  | fuel + 1, i =>
    if s.code i ≠ Source.invalid && continuesName (s.code i) then flagsStop s fuel (i + 1) else i

/-- The pattern, the flags and the end of the regular expression whose slash a token holds. -/
def regexp (s : Source) (t : Token) : Except Complaint (CodeUnits × CodeUnits × Cursor) :=
  match regexpBody s (s.size + 1) (t.start + 1) false with
  | .error message => .error (.wrong message t.place)
  | .ok stop =>
    let last := flagsStop s s.size (stop + 1)
    .ok (.ofString (s.slice (t.start + 1) stop), .ofString (s.slice (stop + 1) last),
      { t.stop with index := last })

end Patchbay.Script.Lexer
