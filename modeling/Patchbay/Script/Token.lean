import Patchbay.Script.Tree
import Patchbay.Text.Letters
/-!
Tokens of scripts. A script holds no NUL, so the code point zero marks its end; a part of it that is
no text is held as nothing, and only comments may hold such a part.
-/
namespace Patchbay.Script

open Binary Text

inductive Complaint
  | wrong (message : String) (place : Place)
  | tooDeep
  deriving DecidableEq, Inhabited, Repr

/-- A script as it is read: its characters, and nothing for each invalid part. -/
structure Source where
  chars : Array (Option Char)
  deriving Inhabited

namespace Source

def ofBytes (s : Utf8.Bytes) : Source := ⟨(Utf8.pieces s).toArray⟩

def invalid : Nat := 0x110000

def code (s : Source) (i : Nat) : Nat :=
  match s.chars[i]? with
  | some (some c) => c.toNat
  | some none => invalid
  | none => 0

def slice (s : Source) (start stop : Nat) : String :=
  String.ofList ((s.chars.extract start stop).toList.map fun c => c.getD Utf8.replacement)

def size (s : Source) : Nat := s.chars.size

end Source

/-- Where reading stands: the next character, its line, and the index at which that line starts. -/
structure Cursor where
  index : Nat := 0
  line : Nat := 1
  lineStart : Nat := 0
  deriving DecidableEq, Inhabited, Repr

namespace Cursor

def place (c : Cursor) : Place := ⟨c.line, c.index - c.lineStart⟩

def forward (c : Cursor) (n : Nat) : Cursor := { c with index := c.index + n }

def nextLine (c : Cursor) (n : Nat) : Cursor := ⟨c.index + n, c.line + 1, c.index + n⟩

end Cursor

inductive TokenKind
  | finish
  | number (d : Double)
  | bigint (n : Int)
  | string (s : CodeUnits)
  /-- A part of a template: its text, if its escapes are well-formed, the text as it is written, and
  whether it is the last part. -/
  | template (cooked : Option CodeUnits) (raw : CodeUnits) (last : Bool)
  | word (text : String) (escaped : Bool)
  | privateName (text : String)
  | mark (text : String)
  deriving Inhabited, Repr, DecidableEq

structure Token where
  kind : TokenKind
  start : Nat
  place : Place
  /-- Whether a line ended between the token and the one before it. -/
  afterLine : Bool
  stop : Cursor
  deriving Inhabited, Repr

namespace Token

def isMark (t : Token) (s : String) : Bool :=
  match t.kind with
  | .mark text => text == s
  | _ => false

def isWord (t : Token) (s : String) : Bool :=
  match t.kind with
  | .word text escaped => !escaped && text == s
  | _ => false

def isFinish (t : Token) : Bool := t.kind == .finish

end Token

def reservedWords : List String :=
  ["null", "false", "true", "if", "else", "return", "var", "this", "delete", "void", "typeof", "new",
    "in", "instanceof", "do", "while", "for", "break", "continue", "switch", "case", "default",
    "throw", "try", "catch", "finally", "function", "debugger", "with", "class", "const", "enum",
    "export", "extends", "import", "super"]

def strictWords : List String :=
  ["implements", "interface", "let", "package", "private", "protected", "public", "static", "yield"]

end Patchbay.Script
