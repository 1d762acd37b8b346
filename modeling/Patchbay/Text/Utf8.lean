/-!
Reading bytes as text. Each character takes the bytes that write it, and each maximal part that can
begin no character is read as one replacement mark, so reading never fails. A strict reading gives
nothing when some part is invalid.
-/
namespace Patchbay.Text.Utf8

abbrev Bytes := List UInt8

def replacement : Char := '\ufffd'

def isTail (b : UInt8) : Bool :=
  0x80 ≤ b && b ≤ 0xBF

/-- The number of bytes of a character that starts with this byte; none when none does. -/
def leadLength (b : UInt8) : Option Nat :=
  if b ≤ 0x7F then some 1
  else if 0xC2 ≤ b && b ≤ 0xDF then some 2
  else if 0xE0 ≤ b && b ≤ 0xEF then some 3
  else if 0xF0 ≤ b && b ≤ 0xF4 then some 4
  else none

/-- Whether the second byte may follow this first one: no overlong form, no surrogate, nothing above
the last code point. -/
def isSecond (lead second : UInt8) : Bool :=
  if lead == 0xE0 then 0xA0 ≤ second && second ≤ 0xBF
  else if lead == 0xED then 0x80 ≤ second && second ≤ 0x9F
  else if lead == 0xF0 then 0x90 ≤ second && second ≤ 0xBF
  else if lead == 0xF4 then 0x80 ≤ second && second ≤ 0x8F
  else isTail second

private def low (b : UInt8) : Nat := b.toNat % 0x40

/-- One step of reading: the character, or nothing for an invalid part, and how many bytes it takes
after the first one. -/
def step (lead : UInt8) (rest : Bytes) : Option Char × Nat :=
  match leadLength lead with
  | none => (none, 0)
  | some 1 => (some (Char.ofNat lead.toNat), 0)
  | some 2 =>
    match rest with
    | b :: _ => if isSecond lead b then (some (Char.ofNat (lead.toNat % 0x20 * 0x40 + low b)), 1)
        else (none, 0)
    | [] => (none, 0)
  | some 3 =>
    match rest with
    | b :: c :: _ =>
      if !isSecond lead b then (none, 0)
      else if isTail c then
        (some (Char.ofNat ((lead.toNat % 0x10 * 0x40 + low b) * 0x40 + low c)), 2)
      else (none, 1)
    | [b] => if isSecond lead b then (none, 1) else (none, 0)
    | [] => (none, 0)
  | some _ =>
    match rest with
    | b :: c :: d :: _ =>
      if !isSecond lead b then (none, 0)
      else if !isTail c then (none, 1)
      else if isTail d then
        (some (Char.ofNat (((lead.toNat % 0x08 * 0x40 + low b) * 0x40 + low c) * 0x40 + low d)), 3)
      else (none, 2)
    | [b, c] =>
      if !isSecond lead b then (none, 0) else if isTail c then (none, 2) else (none, 1)
    | [b] => if isSecond lead b then (none, 1) else (none, 0)
    | [] => (none, 0)

/-- The pieces of a byte text: its characters, and nothing for each invalid part. -/
def pieces : Bytes → List (Option Char)
  | [] => []
  | b :: rest =>
    let (piece, more) := step b rest
    piece :: pieces (rest.drop more)
termination_by s => s.length
decreasing_by
  rw [List.length_drop, List.length_cons]
  omega

def decodeLossy (s : Bytes) : List Char :=
  (pieces s).map fun piece => piece.getD replacement

def decode? (s : Bytes) : Option (List Char) :=
  (pieces s).mapM id

def encode (s : List Char) : Bytes :=
  s.flatMap String.utf8EncodeChar

def ofString (s : String) : Bytes :=
  encode s.toList

def lossyString (s : Bytes) : String :=
  String.ofList (decodeLossy s)

end Patchbay.Text.Utf8
