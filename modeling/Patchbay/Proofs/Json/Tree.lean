import Patchbay.Text.Utf8

/-!
JSON and the ways a text may lay it out. A tree is a value without the blanks between its parts. A string
in it is kept as it is spelled, because an escape of half a surrogate pair is a string that stands for no
text, and such a string may still be passed over. The name of a member is kept as the text it stands for,
and may be spelled in any way that stands for it, so half a pair is no name. The rules are those of the
format: nothing here is taken from a reader.
-/
namespace Patchbay.Json

open Text Text.Utf8

structure Hex where
  value : Fin 16
  capital : Bool

def Hex.byte (h : Hex) : UInt8 :=
  if h.value.val < 10 then UInt8.ofNat (0x30 + h.value)
  else if h.capital then UInt8.ofNat (0x41 + (h.value - 10))
  else UInt8.ofNat (0x61 + (h.value - 10))

structure Quad where
  first : Hex
  second : Hex
  third : Hex
  fourth : Hex

def Quad.value (q : Quad) : Nat :=
  ((q.first.value * 16 + q.second.value) * 16 + q.third.value) * 16 + q.fourth.value

def Quad.bytes (q : Quad) : Bytes := [q.first.byte, q.second.byte, q.third.byte, q.fourth.byte]

inductive Short
  | quote
  | backslash
  | slash
  | backspace
  | feed
  | newline
  | turn
  | tab

def Short.letter : Short → UInt8
  | quote => 0x22
  | backslash => 0x5C
  | slash => 0x2F
  | backspace => 0x62
  | feed => 0x66
  | newline => 0x6E
  | turn => 0x72
  | tab => 0x74

def Short.value : Short → Char
  | quote => '"'
  | backslash => '\\'
  | slash => '/'
  | backspace => Char.ofNat 0x08
  | feed => Char.ofNat 0x0C
  | newline => '\n'
  | turn => '\r'
  | tab => '\t'

def Stands (c : Char) : Prop := 0x20 ≤ c.toNat ∧ c ≠ '"' ∧ c ≠ '\\'

instance (c : Char) : Decidable (Stands c) := inferInstanceAs (Decidable (_ ∧ _))

inductive Piece
  | plain (c : Char) (stands : Stands c)
  | short (escape : Short)
  | unit (quad : Quad)

def Piece.bytes : Piece → Bytes
  | plain c _ => String.utf8EncodeChar c
  | short escape => [0x5C, escape.letter]
  | unit quad => 0x5C :: 0x75 :: quad.bytes

abbrev Literal := List Piece

def Literal.bytes (l : Literal) : Bytes := l.flatMap Piece.bytes

def Literal.quoted (l : Literal) : Bytes := 0x22 :: (l.bytes ++ [0x22])

/-- The text that a spelling stands for. Escapes give code units; two that are a surrogate pair are one
character, and half of a pair is none. -/
def Literal.text? : Literal → Option (List Char)
  | [] => some []
  | .plain c _ :: rest => (text? rest).map (c :: ·)
  | .short escape :: rest => (text? rest).map (escape.value :: ·)
  | .unit q :: rest =>
    if q.value < 0xD800 ∨ 0xDFFF < q.value then (text? rest).map (Char.ofNat q.value :: ·)
    else if 0xDBFF < q.value then none
    else
      match rest with
      | .unit r :: rest =>
        if 0xDC00 ≤ r.value ∧ r.value ≤ 0xDFFF then
          (text? rest).map (Char.ofNat (0x10000 + (q.value - 0xD800) * 0x400 + (r.value - 0xDC00)) :: ·)
        else none
      | _ => none

def Spells (s : Bytes) (name : String) : Prop :=
  ∃ l : Literal, l.text? = some name.toList ∧ s = l.quoted

theorem spells_plain {name : String} (stand : name.toList.all (Stands ·)) :
    Spells (0x22 :: (encode name.toList ++ [0x22])) name := by
  have spelled : ∀ cs : List Char, (∀ c ∈ cs, Stands c) →
      ∃ l : Literal, l.text? = some cs ∧ l.bytes = encode cs := by
    intro cs stand
    induction cs with
    | nil => exact ⟨[], rfl, rfl⟩
    | cons c cs ih =>
      obtain ⟨l, text, bytes⟩ := ih fun x member => stand x (.tail _ member)
      refine ⟨.plain c (stand c (.head _)) :: l, by rw [Literal.text?, text]; rfl, ?_⟩
      rw [Literal.bytes, List.flatMap_cons, ← Literal.bytes, bytes]
      rfl
  obtain ⟨l, text, bytes⟩ := spelled name.toList (by simpa using stand)
  exact ⟨l, text, by rw [Literal.quoted, bytes]⟩

structure Digits where
  first : Fin 10
  others : List (Fin 10)

def Digits.byte (n : Fin 10) : UInt8 := UInt8.ofNat (0x30 + n)

def Digits.bytes (d : Digits) : Bytes := byte d.first :: d.others.map byte

structure Exponent where
  capital : Bool
  minus : Option Bool
  digits : Digits

def Exponent.bytes (e : Exponent) : Bytes :=
  (if e.capital then 0x45 else 0x65) ::
    (e.minus.elim [] (fun minus => [if minus then 0x2D else 0x2B]) ++ e.digits.bytes)

/-- A number as it is spelled. What stands before the point begins with a zero only if it is zero. -/
structure Numeral where
  negative : Bool := false
  whole : Nat
  decimals : Option Digits := none
  exponent : Option Exponent := none

def Numeral.tail (n : Numeral) : Bytes :=
  n.decimals.elim [] (fun d => 0x2E :: d.bytes) ++ n.exponent.elim [] Exponent.bytes

def Numeral.bytes (n : Numeral) : Bytes :=
  (if n.negative then [0x2D] else []) ++ (ofString (toString n.whole) ++ n.tail)

inductive Tree
  | null
  | bool (value : Bool)
  | number (spelled : Numeral)
  | string (spelled : Literal)
  | list (items : List Tree)
  | object (members : List (String × Tree))

def Blank (s : Bytes) : Prop := ∀ b ∈ s, b = 0x20 ∨ b = 0x0A ∨ b = 0x09 ∨ b = 0x0D

instance (s : Bytes) : Decidable (Blank s) := List.decidableBAll _ s

inductive Joint : Bool → Bytes → Prop
  | first {g : Bytes} (blank : Blank g) : Joint true g
  | next {g h : Bytes} (before : Blank g) (behind : Blank h) : Joint false (g ++ 0x2C :: h)

mutual

/-- A text lays out a value: it has the parts of the value in their order, and blanks between them. -/
inductive Lays : Tree → Bytes → Prop
  | null : Lays .null [0x6E, 0x75, 0x6C, 0x6C]
  | yes : Lays (.bool true) [0x74, 0x72, 0x75, 0x65]
  | no : Lays (.bool false) [0x66, 0x61, 0x6C, 0x73, 0x65]
  | number (spelled : Numeral) : Lays (.number spelled) spelled.bytes
  | string (spelled : Literal) : Lays (.string spelled) spelled.quoted
  | list {items : List Tree} {s g : Bytes} (lays : LaysItems true items s) (blank : Blank g) :
      Lays (.list items) (0x5B :: (s ++ (g ++ [0x5D])))
  | object {members : List (String × Tree)} {s g : Bytes} (lays : LaysMembers true members s)
      (blank : Blank g) : Lays (.object members) (0x7B :: (s ++ (g ++ [0x7D])))

inductive LaysItems : Bool → List Tree → Bytes → Prop
  | nil (first : Bool) : LaysItems first [] []
  | cons {first : Bool} {t : Tree} {items : List Tree} {j s others : Bytes} (joint : Joint first j)
      (lays : Lays t s) (rest : LaysItems false items others) :
      LaysItems first (t :: items) (j ++ (s ++ others))

inductive LaysMembers : Bool → List (String × Tree) → Bytes → Prop
  | nil (first : Bool) : LaysMembers first [] []
  | cons {first : Bool} {name : String} {t : Tree} {members : List (String × Tree)}
      {j k g h s others : Bytes} (joint : Joint first j) (spells : Spells k name) (before : Blank g)
      (behind : Blank h) (lays : Lays t s) (rest : LaysMembers false members others) :
      LaysMembers first ((name, t) :: members) (j ++ (k ++ (g ++ 0x3A :: (h ++ (s ++ others)))))

end

/-- A text holds a value: it lays it out, and has no more than blanks around it. -/
def Holds (text : String) (t : Tree) : Prop :=
  ∃ g s h, Blank g ∧ Lays t s ∧ Blank h ∧ ofString text = g ++ (s ++ h)

end Patchbay.Json
