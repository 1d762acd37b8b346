import Patchbay.Text.Units
/-!
Upper and lower case of characters, for the letters of the Latin, Greek and Cyrillic alphabets that
come in pairs.
-/
namespace Patchbay.Text.Case

/-- How far behind an upper case letter its lower case letter stands, where the two alphabets stand
apart. -/
def gap? (n : Nat) : Option Nat :=
  if 0x41 ≤ n && n ≤ 0x5A then some 0x20
  else if 0xC0 ≤ n && n ≤ 0xDE && n != 0xD7 then some 0x20
  else if 0x391 ≤ n && n ≤ 0x3AB && n != 0x3A2 then some 0x20
  else if 0x410 ≤ n && n ≤ 0x42F then some 0x20
  else if 0x400 ≤ n && n ≤ 0x40F then some 0x50
  else none

/-- Whether the letters of this range alternate, an upper case letter at each even place. -/
def alternates (n : Nat) : Bool :=
  (0x100 ≤ n && n ≤ 0x12F) || (0x132 ≤ n && n ≤ 0x137) || (0x14A ≤ n && n ≤ 0x177) ||
    (0x460 ≤ n && n ≤ 0x481) || (0x48A ≤ n && n ≤ 0x4BF) || (0x4D0 ≤ n && n ≤ 0x52F) ||
    (0x1E00 ≤ n && n ≤ 0x1E95) || (0x1EA0 ≤ n && n ≤ 0x1EFF)

def lower (n : Nat) : List Nat :=
  match gap? n with
  | some gap => [n + gap]
  | none => if alternates n && n % 2 = 0 then [n + 1] else [n]

def upper (n : Nat) : List Nat :=
  if n = 0xDF then [0x53, 0x53]
  else if n = 0xFF then [0x178]
  else if n = 0xB5 then [0x39C]
  else if n = 0x3C2 then [0x3A3]
  else if 0x20 ≤ n && gap? (n - 0x20) == some 0x20 then [n - 0x20]
  else if 0x50 ≤ n && gap? (n - 0x50) == some 0x50 then [n - 0x50]
  else if alternates n && n % 2 = 1 then [n - 1]
  else [n]

def lowerText (s : CodeUnits) : CodeUnits := .ofCodePoints (s.codePoints.flatMap lower)

def upperText (s : CodeUnits) : CodeUnits := .ofCodePoints (s.codePoints.flatMap upper)

end Patchbay.Text.Case
