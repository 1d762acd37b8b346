import Patchbay.Script.Lexer
/-!
What makes a regular expression no regular expression. With the flag `u` a pattern is read by its code
points and every sign has one meaning only; without it a sign that makes no sense stands for itself.
Groups nest, so the groups that are open are held while the terms of a pattern are passed over.
-/
namespace Patchbay.Script.Regexp

open Text

structure Groups where
  count : Nat := 0
  names : List (List Nat) := []

structure Passed where
  /-- The open groups, innermost first, and whether each may be repeated. -/
  opened : List Bool := []
  repeatable : Bool := false
  names : List (List Nat) := []

private def among (signs : String) (n : Nat) : Bool := signs.toList.any fun c => c.toNat == n

private def isDigit (n : Nat) : Bool := 0x30 ≤ n && n ≤ 0x39

def fixedHex : Nat → Nat → List Nat → Option (Nat × List Nat)
  | 0, value, p => some (value, p)
  | _ + 1, _, [] => none
  | count + 1, value, n :: p => do fixedHex count (value * 16 + (← Lexer.digitIn? 16 n)) p

def bracedHex (value : Nat) : List Nat → Option (Nat × List Nat)
  | [] => none
  | n :: p => do
    let value := value * 16 + (← Lexer.digitIn? 16 n)
    if 0x10FFFF < value then none
    else if p.head? == some 0x7D then some (value, p.drop 1)
    else bracedHex value p

def octalRest (value : Nat) : Nat → List Nat → Nat × List Nat
  | 0, p => (value, p)
  | _ + 1, [] => (value, [])
  | count + 1, n :: p =>
    match Lexer.digitIn? 8 n with
    | some d => if 32 ≤ value then (value, n :: p) else octalRest (value * 8 + d) count p
    | none => (value, n :: p)

def character? (unicode : Bool) (n : Nat) (p : List Nat) : Option (Nat × List Nat) :=
  match ([(0x62, 0x08), (0x66, 0x0C), (0x6E, 0x0A), (0x72, 0x0D), (0x74, 0x09), (0x76, 0x0B)] :
      List (Nat × Nat)).lookup n with
  | some value => some (value, p)
  | none =>
    if among "xu" n then
      if unicode && p.head? == some 0x7B then bracedHex 0 (p.drop 1)
      else do
        let (high, rest) ← fixedHex (if n = 0x78 then 2 else 4) 0 p
        if unicode && n = 0x75 && 0xD800 ≤ high && high < 0xDC00 && rest.take 2 == [0x5C, 0x75] then
          match fixedHex 4 0 (rest.drop 2) with
          | some (low, rest') =>
            if 0xDC00 ≤ low && low < 0xE000 then
              return (0x10000 + (high - 0xD800) * 0x400 + (low - 0xDC00), rest')
          | none => pure ()
        return (high, rest)
    else
      match Lexer.digitIn? 8 n with
      | none => none
      | some d =>
        if unicode then if d = 0 && !(p.head?.any isDigit) then some (0, p) else none
        else some (octalRest d 2 p)

def invalidEscape : String := "invalid escape sequence in regular expression"

def property (p : List Nat) : Except String (List Nat) :=
  if p.head? == some 0x7B then
    let named := (p.drop 1).takeWhile fun n => isAsciiLetter n || isDigit n || among "_=" n
    let rest := p.drop (1 + named.length)
    if named.isEmpty || rest.head? != some 0x7D then .error "unknown unicode property name"
    else .ok (rest.drop 1)
  else .error "expecting '\x7b' after \\p"

/-- The escape behind a backslash: the character that it stands for, unless it is a set of them. -/
def escape (unicode inClass : Bool) : List Nat → Except String (Option Nat × List Nat)
  | [] => .error "unexpected end"
  | n :: p =>
    if among "dDsSwW" n then .ok (none, p)
    else if n = 0x63 then
      match p with
      | [] => if unicode then .error invalidEscape else .ok (some 0x5C, n :: p)
      | letter :: rest =>
        if isAsciiLetter letter || (inClass && !unicode && (isDigit letter || letter == 0x5F)) then
          .ok (some (letter % 32), rest)
        else if unicode then .error invalidEscape
        else .ok (some 0x5C, n :: p)
    else if n = 0x2D then
      if unicode && !inClass then .error invalidEscape else .ok (some n, p)
    else if unicode && among "pP" n then do return (none, ← property p)
    else
      match character? unicode n p with
      | some (value, rest) => .ok (some value, rest)
      | none =>
        if unicode && !among "^$\\.*+?()[]\x7b\x7d|/" n then .error invalidEscape else .ok (some n, p)

def classAtom (unicode : Bool) : List Nat → Except String (Option Nat × List Nat)
  | [] => .error "unexpected end"
  | n :: p => if n = 0x5C then escape unicode true p else .ok (some n, p)

def classRest (unicode : Bool) : Nat → List Nat → Except String (List Nat)
  | 0, _ | _ + 1, [] => .error "unexpected end"
  | fuel + 1, n :: p => do
    if n = 0x5D then return p
    let (low, rest) ← classAtom unicode (n :: p)
    if rest.head? != some 0x2D || (rest.drop 1).head? == some 0x5D then classRest unicode fuel rest
    else if low.isNone then
      if unicode then throw "invalid class range" else classRest unicode fuel rest
    else
      let (high, behind) ← classAtom unicode (rest.drop 1)
      match low, high with
      | some low, some high => if high < low then throw "invalid class range" else classRest unicode fuel behind
      | _, _ => if unicode then throw "invalid class range" else classRest unicode fuel rest

def nameCharacters : Nat → List Nat → Option (List Nat)
  | 0, _ => none
  | _ + 1, [] => some []
  | fuel + 1, n :: p => do
    if n = 0x5C then
      if p.head? != some 0x75 then none
      let (value, rest) ← character? true 0x75 (p.drop 1)
      return value :: (← nameCharacters fuel rest)
    else return n :: (← nameCharacters fuel p)

def groupName? (unicode : Bool) (p : List Nat) : Option (List Nat × List Nat) := do
  let written := p.takeWhile (· != 0x3E)
  if written.length = p.length then none
  let paired := if unicode then written else CodeUnits.pairUp (written.map UInt16.ofNat)
  let n ← nameCharacters (paired.length + 1) paired
  let first ← n.head?
  if startsName first && n.all continuesName then some (n, p.drop (written.length + 1)) else none

def groups (unicode : Bool) : Nat → Bool → List Nat → Groups
  | 0, _, _ | _ + 1, _, [] => {}
  | fuel + 1, inClass, n :: p =>
    if n = 0x5C then groups unicode fuel inClass (p.drop 1)
    else if inClass then groups unicode fuel (n != 0x5D) p
    else if n = 0x5B then groups unicode fuel true p
    else
      let others := groups unicode fuel false p
      if n != 0x28 then others
      else if p.head? != some 0x3F then { others with count := others.count + 1 }
      else if (p.drop 1).head?.any (· != 0x3C) then others
      else if (p.drop 2).head?.any (among "=!") then others
      else
        match groupName? unicode (p.drop 2) with
        | some (name, _) => ⟨others.count + 1, name :: others.names⟩
        | none => { others with count := others.count + 1 }

def amount (digits : List Nat) : Nat :=
  min (digits.foldl (fun value n => value * 10 + (n - 0x30)) 0) 0x7FFFFFFF

/-- The repetition between braces, whose opening one has been passed: whether its bounds make sense, and
what comes behind it. -/
def bounds? (p : List Nat) : Option (Bool × List Nat) :=
  let low := p.takeWhile isDigit
  let rest := p.drop low.length
  if low.isEmpty then none
  else if rest.head? == some 0x7D then some (true, rest.drop 1)
  else if rest.head? == some 0x2C then
    let high := (rest.drop 1).takeWhile isDigit
    let behind := rest.drop (1 + high.length)
    let sound := high.isEmpty || amount low ≤ amount high
    if behind.head? == some 0x7D then some (sound, behind.drop 1)
    else if sound then none
    else some (false, behind)
  else none

def openGroup (unicode : Bool) (done : Passed) (p : List Nat) : Except String (Passed × List Nat) :=
  let opening (repeatable : Bool) : Passed :=
    { done with opened := repeatable :: done.opened, repeatable := false }
  match p with
  | 0x3F :: 0x3A :: rest => .ok (opening true, rest)
  | 0x3F :: 0x3D :: rest | 0x3F :: 0x21 :: rest => .ok (opening !unicode, rest)
  | 0x3F :: 0x3C :: 0x3D :: rest | 0x3F :: 0x3C :: 0x21 :: rest => .ok (opening false, rest)
  | 0x3F :: 0x3C :: rest =>
    match groupName? unicode rest with
    | none => .error "invalid group name"
    | some (n, rest) =>
      if done.names.contains n then .error "duplicate group name"
      else .ok ({ opening true with names := n :: done.names }, rest)
  | 0x3F :: _ => .error "invalid group"
  | _ => .ok (opening true, p)

def openEscape (unicode : Bool) (all : Groups) (done : Passed) (p : List Nat) :
    Except String (Passed × List Nat) :=
  let term (rest : List Nat) : Except String (Passed × List Nat) :=
    .ok ({ done with repeatable := true }, rest)
  match p with
  | [] => .error "unexpected end"
  | n :: rest => do
    if among "bB" n then return ({ done with repeatable := false }, rest)
    else if n = 0x6B then
      let refuse (message : String) : Except String (Passed × List Nat) :=
        if unicode || !all.names.isEmpty then .error message else term rest
      if rest.head? != some 0x3C then refuse "expecting group name"
      else
        match groupName? unicode (rest.drop 1) with
        | none => refuse "invalid group name"
        | some (name, behind) =>
          if all.names.contains name then term behind else refuse "group name not defined"
    else if isDigit n && n != 0x30 then
      let digits := p.takeWhile isDigit
      if unicode && all.count < amount digits then
        throw "back reference out of range in regular expression"
      else term (if unicode then p.drop digits.length else rest)
    else if n = 0x30 && unicode && rest.head?.any isDigit then
      throw "invalid decimal escape in regular expression"
    else
      let (_, rest) ← escape unicode false p
      term rest

def pass (unicode : Bool) (all : Groups) (done : Passed) (n : Nat) (p : List Nat) :
    Except String (Passed × List Nat) := do
  let term : Passed := { done with repeatable := true }
  let between : Passed := { done with repeatable := false }
  let lazily (rest : List Nat) : List Nat := if rest.head? == some 0x3F then rest.drop 1 else rest
  if among "|^$" n then return (between, p)
  else if n = 0x28 then openGroup unicode done p
  else if n = 0x29 then
    match done.opened with
    | [] => throw "extraneous characters at the end"
    | repeatable :: outer => return ({ done with opened := outer, repeatable := repeatable }, p)
  else if n = 0x5C then openEscape unicode all done p
  else if n = 0x5B then
    let inner := if p.head? == some 0x5E then p.drop 1 else p
    return (term, ← classRest unicode (inner.length + 1) inner)
  else if among "*+?" n then
    if done.repeatable then return (between, lazily p) else throw "nothing to repeat"
  else if n = 0x7B then
    match done.repeatable, bounds? p with
    | true, some (true, rest) => return (between, lazily rest)
    | true, some (false, _) => throw "invalid repetition count"
    | true, none => if unicode then throw "invalid repetition count" else return (term, p)
    | false, some _ => throw (if unicode then "syntax error" else "nothing to repeat")
    | false, none => if unicode then throw "syntax error" else return (term, p)
  else if unicode && among "]\x7d" n then throw "syntax error"
  else return (term, p)

def passAll (unicode : Bool) (all : Groups) : Nat → Passed → List Nat → Except String Unit
  | 0, _, _ => .ok ()
  | _ + 1, done, [] => if done.opened.isEmpty then .ok () else .error "expecting ')'"
  | fuel + 1, done, n :: p => do
    let (done, rest) ← pass unicode all done n p
    passAll unicode all fuel done rest

def checkFlags (flags : List Char) : Except String Unit :=
  if flags.all "dgimsuy".toList.contains && flags.Nodup then .ok ()
  else .error "invalid regular expression flags"

def check (pattern flags : CodeUnits) : Except String Unit := do
  let flags := flags.lossy.toList
  checkFlags flags
  let unicode := flags.contains 'u'
  let p := if unicode then pattern.codePoints else pattern.units.toList.map UInt16.toNat
  let all := groups unicode (p.length + 1) false p
  if 255 ≤ all.count then throw "too many captures"
  passAll unicode all (p.length + 1) {} p

/-- The message with which the engine refuses a regular expression, if it does. -/
def fault? (pattern flags : CodeUnits) : Option String :=
  match check pattern flags with
  | .ok _ => none
  | .error message => some message

end Patchbay.Script.Regexp
