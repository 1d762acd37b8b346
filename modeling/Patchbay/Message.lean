import Patchbay.Atom
import Patchbay.Decimal.Numeral
import Patchbay.Text.Blank
/-!
Messages: a selector and its arguments. The text form is a line of words and quoted texts between
blanks; a quoted text is always a symbol, and a word that looks like a number is one. A message read
from a line keeps its arguments as they were written.
-/
namespace Patchbay

open Binary Text

inductive ParseError
  | empty
  | numericSelector (found : String)
  | unterminatedQuote (offset : Nat)
  deriving DecidableEq, Repr

def ParseError.message : ParseError → String
  | empty => "empty message"
  | numericSelector found => "message must start with a selector, found '" ++ found ++ "'"
  | unterminatedQuote offset =>
    "unterminated quoted symbol starting at byte " ++ toString offset

/-- A token of a line: the atom it stands for and its text. -/
structure Token where
  atom : Atom
  lexeme : String
  deriving DecidableEq, Repr

structure Message where
  selector : String
  args : List Atom
  source : String
  deriving DecidableEq, Repr

namespace Message

/-- Whether a word may be a number: after one sign and one point it starts with a digit. -/
def looksNumeric (word : List Char) : Bool :=
  let digits := (Decimal.splitSign word).2
  let digits := match digits with
    | '.' :: rest => rest
    | _ => digits
  match digits with
  | c :: _ => Decimal.isDigit c
  | [] => false

/-- The atom of a word: an integer of sixty-four bits, else a float, else the word itself. -/
def classify (word : List Char) : Atom :=
  if looksNumeric word then
    match Decimal.integer? word with
    | some n => .int n
    | none =>
      match Decimal.single? word with
      | some x => .float x
      | none => .symbol (String.ofList word)
  else .symbol (String.ofList word)

/-- The text of a quoted token after its opening quote, and what follows its closing quote; nothing
when it never closes. A backslash takes the next character with it. -/
def unquote? : List Char → Option (List Char × List Char)
  | [] => none
  | '"' :: rest => some ([], rest)
  | '\\' :: c :: rest =>
    (unquote? rest).map fun (text, rest) =>
      (if c = '"' || c = '\\' then c :: text else '\\' :: c :: text, rest)
  | c :: rest => (unquote? rest).map fun (text, rest) => (c :: text, rest)

theorem unquote_length {s text rest : List Char} (h : unquote? s = some (text, rest)) :
    rest.length < s.length := by
  fun_induction unquote? s generalizing text rest with
  | case1 => simp at h
  | case2 r => simp at h; obtain ⟨-, rfl⟩ := h; simp
  | case3 c r ih =>
    obtain ⟨⟨t, u⟩, hu, he⟩ := Option.map_eq_some_iff.1 h
    obtain ⟨-, rfl⟩ := Prod.mk.injEq .. ▸ he
    have := ih hu
    simp only [List.length_cons]
    omega
  | case4 c r _ _ ih =>
    obtain ⟨⟨t, u⟩, hu, he⟩ := Option.map_eq_some_iff.1 h
    obtain ⟨-, rfl⟩ := Prod.mk.injEq .. ▸ he
    have := ih hu
    simp only [List.length_cons]
    omega

def byteLength : List Char → Nat
  | [] => 0
  | c :: rest => c.utf8Size + byteLength rest

def tokensFrom (offset : Nat) : List Char → Except ParseError (List Token)
  | [] => .ok []
  | c :: rest =>
    if isBlank c then tokensFrom (offset + c.utf8Size) rest
    else if c = '"' then
      match h : unquote? rest with
      | none => .error (.unterminatedQuote offset)
      | some (text, after) =>
        have := unquote_length h
        let taken := byteLength (c :: rest) - byteLength after
        let token : Token := ⟨.symbol (String.ofList text), String.ofList text⟩
        (tokensFrom (offset + taken) after).map (token :: ·)
    else
      let word := c :: rest.takeWhile fun c => !isBlank c
      let after := rest.dropWhile fun c => !isBlank c
      have : (rest.dropWhile fun c => !isBlank c).length ≤ rest.length :=
        (List.dropWhile_sublist _).length_le
      let token : Token := ⟨classify word, String.ofList word⟩
      (tokensFrom (offset + byteLength word) after).map (token :: ·)
termination_by s => s.length
decreasing_by
  all_goals simp only [List.length_cons]
  all_goals omega

def tokens (line : List Char) : Except ParseError (List Token) := tokensFrom 0 line

def parse (line : String) : Except ParseError Message := do
  match ← tokens line.toList with
  | [] => .error .empty
  | first :: rest =>
    match first.atom with
    | .symbol selector =>
      .ok ⟨selector, rest.map Token.atom, String.intercalate " " (rest.map Token.lexeme)⟩
    | _ => .error (.numericSelector first.lexeme)

def ofAtoms (selector : String) (args : List Atom) : Message := ⟨selector, args, Atom.join args⟩

def text (m : Message) : String :=
  if m.source.isEmpty then m.selector else m.selector ++ " " ++ m.source

end Message

end Patchbay
