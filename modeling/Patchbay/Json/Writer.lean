/-!
Writing JSON without blanks. Quotes, backslashes and control characters are escaped, all else stands
for itself.
-/
namespace Patchbay.Json

def hexDigit (n : Nat) : Char :=
  if n < 10 then Char.ofNat (48 + n) else Char.ofNat (87 + n)

def escape (c : Char) : List Char :=
  if c = '"' then ['\\', '"']
  else if c = '\\' then ['\\', '\\']
  else if c = '\n' then ['\\', 'n']
  else if c = '\r' then ['\\', 'r']
  else if c = '\t' then ['\\', 't']
  else if c = Char.ofNat 8 then ['\\', 'b']
  else if c = Char.ofNat 12 then ['\\', 'f']
  else if c.toNat < 32 then ['\\', 'u', '0', '0', hexDigit (c.toNat / 16), hexDigit (c.toNat % 16)]
  else [c]

def writeString (s : String) : String :=
  "\"" ++ String.ofList (s.toList.flatMap escape) ++ "\""

def writeOption {α : Type} (write : α → String) : Option α → String
  | some a => write a
  | none => "null"

def writeBool (b : Bool) : String := if b then "true" else "false"

def writeList {α : Type} (write : α → String) (l : List α) : String :=
  "[" ++ String.intercalate "," (l.map write) ++ "]"

def writeObject (fields : List (String × String)) : String :=
  "\x7b" ++ String.intercalate "," (fields.map fun (name, value) => writeString name ++ ":" ++ value)
    ++ "\x7d"

end Patchbay.Json
