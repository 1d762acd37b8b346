import Patchbay.Message
import Mathlib.Data.List.TakeWhile

/-!
The grammar of message lines. A line falls into blanks, words and quoted texts in one way only, and a
quoted text that never closes takes what is left of it. Reading a line gives what this one division of
it says. Which words are numbers is not spoken of here.
-/
namespace Patchbay.Message

open Text

/-- A step within quotes: a character, or a backslash and the character that it takes along. -/
inductive Stroke
  | plain (c : Char) (ordinary : c ≠ '"' ∧ c ≠ '\\')
  | escaped (c : Char)

namespace Stroke

def written : Stroke → List Char
  | plain c _ => [c]
  | escaped c => ['\\', c]

/-- What a step stands for. Only before a quote or a backslash does the backslash go. -/
def meaning : Stroke → List Char
  | plain c _ => [c]
  | escaped c => if c = '"' ∨ c = '\\' then [c] else ['\\', c]

end Stroke

def spelled (strokes : List Stroke) : List Char := strokes.flatMap Stroke.written

def meant (strokes : List Stroke) : List Char := strokes.flatMap Stroke.meaning

structure Word where
  first : Char
  rest : List Char
  unquoted : first ≠ '"'
  solid : ∀ c ∈ first :: rest, isBlank c = false

def Word.chars (w : Word) : List Char := w.first :: w.rest

inductive Lexeme
  | quoted (strokes : List Stroke)
  | word (w : Word)

namespace Lexeme

def written : Lexeme → List Char
  | quoted strokes => '"' :: (spelled strokes ++ ['"'])
  | word w => w.chars

def text : Lexeme → String
  | quoted strokes => String.ofList (meant strokes)
  | word w => String.ofList w.chars

def atom : Lexeme → Atom
  | quoted strokes => .symbol (quoted strokes).text
  | word w => classify w.chars

def IsNumber : Lexeme → Prop
  | quoted _ => False
  | word w => ∀ s, classify w.chars ≠ .symbol s

def token (l : Lexeme) : Token := ⟨l.atom, l.text⟩

end Lexeme

inductive Piece
  | blank (c : Char) (white : isBlank c = true)
  | lexeme (l : Lexeme)

namespace Piece

def written : Piece → List Char
  | blank c _ => [c]
  | lexeme l => l.written

def lexeme? : Piece → Option Lexeme
  | blank .. => none
  | lexeme l => some l

end Piece

def lexemes (pieces : List Piece) : List Lexeme := pieces.filterMap Piece.lexeme?

def writtenAs (pieces : List Piece) : List Char := pieces.flatMap Piece.written

/-- How a line ends: behind its last piece, or within a quoted text, maybe behind a lone backslash. -/
inductive Ending
  | closed
  | unclosed (strokes : List Stroke) (lone : Bool)

def lonely (lone : Bool) : List Char := if lone then ['\\'] else []

def Ending.written : Ending → List Char
  | closed => []
  | unclosed strokes lone => '"' :: (spelled strokes ++ lonely lone)

/-- A line is written as these pieces with this ending. A word goes on up to a blank or the end. -/
inductive Reads : List Piece → Ending → List Char → Prop
  | closed : Reads [] .closed []
  | unclosed (strokes : List Stroke) (lone : Bool) :
      Reads [] (.unclosed strokes lone) ('"' :: (spelled strokes ++ lonely lone))
  | blank {pieces : List Piece} {ending : Ending} {rest : List Char} (c : Char)
      (white : isBlank c = true) (reads : Reads pieces ending rest) :
      Reads (.blank c white :: pieces) ending (c :: rest)
  | quoted {pieces : List Piece} {ending : Ending} {rest : List Char} (strokes : List Stroke)
      (reads : Reads pieces ending rest) :
      Reads (.lexeme (.quoted strokes) :: pieces) ending ('"' :: (spelled strokes ++ '"' :: rest))
  | word {pieces : List Piece} {ending : Ending} {rest : List Char} (w : Word)
      (parted : ∀ c ∈ rest.head?, isBlank c = true) (reads : Reads pieces ending rest) :
      Reads (.lexeme (.word w) :: pieces) ending (w.chars ++ rest)

def Stops (s : List Char) : Prop := s = [] ∨ s = ['\\'] ∨ ∃ rest, s = '"' :: rest

theorem stops_quote (rest : List Char) : Stops ('"' :: rest) := .inr (.inr ⟨rest, rfl⟩)

theorem stops_lonely (lone : Bool) : Stops (lonely lone) := by
  cases lone
  · exact .inl rfl
  · exact .inr (.inl rfl)

theorem Stops.not_stroke {s : List Char} (stops : Stops s) (stroke : Stroke) (rest : List Char) :
    s ≠ stroke.written ++ rest := by
  rintro rfl
  cases stroke with
  | plain c ordinary =>
    rcases stops with none | lone | ⟨_, quote⟩
    · cases none
    · exact ordinary.2 (List.cons.inj lone).1
    · exact ordinary.1 (List.cons.inj quote).1
  | escaped c =>
    rcases stops with none | lone | ⟨_, quote⟩
    · cases none
    · simp [Stroke.written] at lone
    · simp [Stroke.written] at quote

theorem Stroke.written_inj {a b : Stroke} {s t : List Char}
    (same : a.written ++ s = b.written ++ t) : a = b ∧ s = t := by
  cases a with
  | plain c ordinary =>
    cases b with
    | plain d _ =>
      obtain ⟨rfl, rfl⟩ := List.cons.inj same
      exact ⟨rfl, rfl⟩
    | escaped d => exact absurd (List.cons.inj same).1 ordinary.2
  | escaped c =>
    cases b with
    | plain d ordinary => exact absurd (List.cons.inj same).1.symm ordinary.2
    | escaped d =>
      obtain ⟨rfl, rfl⟩ := List.cons.inj (List.cons.inj same).2
      exact ⟨rfl, rfl⟩

theorem spelled_cons (stroke : Stroke) (strokes : List Stroke) (rest : List Char) :
    spelled (stroke :: strokes) ++ rest = stroke.written ++ (spelled strokes ++ rest) := by
  rw [spelled, List.flatMap_cons, List.append_assoc, spelled]

theorem spelled_inj {a b : List Stroke} {s t : List Char} (stops : Stops s) (stops' : Stops t)
    (same : spelled a ++ s = spelled b ++ t) : a = b ∧ s = t := by
  induction a generalizing b with
  | nil =>
    cases b with
    | nil => exact ⟨rfl, same⟩
    | cons y ys =>
      rw [spelled_cons] at same
      exact absurd same (stops.not_stroke y _)
  | cons x xs ih =>
    cases b with
    | nil =>
      rw [spelled_cons] at same
      exact absurd same.symm (stops'.not_stroke x _)
    | cons y ys =>
      rw [spelled_cons, spelled_cons] at same
      obtain ⟨rfl, rest⟩ := Stroke.written_inj same
      obtain ⟨rfl, stop⟩ := ih rest
      exact ⟨rfl, stop⟩

theorem lonely_inj {lone only : Bool} (same : lonely lone = lonely only) : lone = only := by
  cases lone <;> cases only <;> first | rfl | cases same

theorem lonely_ne_quote (lone : Bool) (rest : List Char) : lonely lone ≠ '"' :: rest := by
  cases lone <;> simp [lonely]

theorem unquote_closed (strokes : List Stroke) (rest : List Char) :
    unquote? (spelled strokes ++ '"' :: rest) = some (meant strokes, rest) := by
  induction strokes with
  | nil => rfl
  | cons stroke strokes ih =>
    rw [spelled_cons]
    cases stroke with
    | plain c ordinary =>
      simp [Stroke.written, Stroke.meaning, unquote?, ordinary, ih, meant]
    | escaped c =>
      simp only [Stroke.written, List.cons_append, List.nil_append, unquote?, ih, Option.map_some]
      by_cases short : c = '"' ∨ c = '\\' <;> simp [meant, Stroke.meaning, short]

theorem unquote_unclosed (strokes : List Stroke) (lone : Bool) :
    unquote? (spelled strokes ++ lonely lone) = none := by
  induction strokes with
  | nil => cases lone <;> rfl
  | cons stroke strokes ih =>
    rw [spelled_cons]
    cases stroke with
    | plain c ordinary => simp [Stroke.written, unquote?, ordinary, ih]
    | escaped c => simp [Stroke.written, unquote?, ih]

/-- What stands behind an opening quote is steps up to a closing quote, or steps to the end. -/
theorem closed_or_unclosed (s : List Char) :
    (∃ strokes rest, s = spelled strokes ++ '"' :: rest) ∨
      ∃ strokes lone, s = spelled strokes ++ lonely lone := by
  fun_induction unquote? s with
  | case1 => exact .inr ⟨[], false, rfl⟩
  | case2 rest => exact .inl ⟨[], rest, rfl⟩
  | case3 c rest ih =>
    obtain ⟨strokes, after, rfl⟩ | ⟨strokes, lone, rfl⟩ := ih
    · exact .inl ⟨.escaped c :: strokes, after, rfl⟩
    · exact .inr ⟨.escaped c :: strokes, lone, rfl⟩
  | case4 c rest quote pair ih =>
    by_cases slash : c = '\\'
    · subst slash
      cases rest with
      | nil => exact .inr ⟨[], true, rfl⟩
      | cons d after => exact absurd rfl (pair d after rfl)
    · have ordinary : c ≠ '"' ∧ c ≠ '\\' := ⟨quote, slash⟩
      obtain ⟨strokes, after, rfl⟩ | ⟨strokes, lone, rfl⟩ := ih
      · exact .inl ⟨.plain c ordinary :: strokes, after, rfl⟩
      · exact .inr ⟨.plain c ordinary :: strokes, lone, rfl⟩

theorem not_blank_quote : isBlank '"' = false := by decide

theorem Word.not_blank (w : Word) : isBlank w.first = false := w.solid _ List.mem_cons_self

theorem Word.split (w : Word) {rest : List Char} (parted : ∀ c ∈ rest.head?, isBlank c = true) :
    ((w.rest ++ rest).takeWhile fun c => !isBlank c) = w.rest ∧
      ((w.rest ++ rest).dropWhile fun c => !isBlank c) = rest := by
  have solid : ∀ c ∈ w.rest, (!isBlank c) = true := by
    intro c member
    rw [w.solid c (List.mem_cons_of_mem _ member), Bool.not_false]
  rw [List.takeWhile_append_of_pos solid, List.dropWhile_append_of_pos solid]
  cases rest with
  | nil => simp
  | cons c after =>
    have white := parted c rfl
    simp [white]

theorem Word.chars_inj {v w : Word} {s t : List Char} (parted : ∀ c ∈ s.head?, isBlank c = true)
    (parted' : ∀ c ∈ t.head?, isBlank c = true) (same : v.chars ++ s = w.chars ++ t) :
    v = w ∧ s = t := by
  obtain ⟨first, rest⟩ := List.cons.inj same
  change v.rest ++ s = w.rest ++ t at rest
  obtain ⟨mine, after⟩ := v.split parted
  obtain ⟨yours, after'⟩ := w.split parted'
  rw [rest] at mine after
  cases v
  cases w
  cases first
  cases mine.symm.trans yours
  exact ⟨rfl, after.symm.trans after'⟩

theorem exists_word {c : Char} (solid : isBlank c = false) (unquoted : c ≠ '"') (rest : List Char) :
    ∃ w : Word, w.chars = c :: (rest.takeWhile fun c => !isBlank c) ∧
      ∀ d ∈ (rest.dropWhile fun c => !isBlank c).head?, isBlank d = true := by
  refine ⟨⟨c, rest.takeWhile fun c => !isBlank c, unquoted, ?_⟩, rfl, ?_⟩
  · intro d member
    rcases List.mem_cons.mp member with rfl | inside
    · exact solid
    · simpa using List.mem_takeWhile_imp inside
  · intro d first
    have stopped := List.head?_dropWhile_not (fun c => !isBlank c) rest
    rw [Option.mem_def.mp first] at stopped
    simpa using stopped

theorem exists_reads (s : List Char) : ∃ pieces ending, Reads pieces ending s := by
  induction bound : s.length using Nat.strong_induction_on generalizing s with
  | _ n ih =>
    cases s with
    | nil => exact ⟨[], .closed, .closed⟩
    | cons c rest =>
      subst bound
      cases white : isBlank c with
      | true =>
        obtain ⟨pieces, ending, reads⟩ := ih _ (Nat.lt_succ_self _) rest rfl
        exact ⟨_, _, .blank c white reads⟩
      | false =>
        by_cases quote : c = '"'
        · subst quote
          obtain ⟨strokes, after, rfl⟩ | ⟨strokes, lone, rfl⟩ := closed_or_unclosed rest
          · obtain ⟨pieces, ending, reads⟩ := ih after.length (by simp; omega) after rfl
            exact ⟨_, _, .quoted strokes reads⟩
          · exact ⟨_, _, .unclosed strokes lone⟩
        · obtain ⟨w, chars, parted⟩ := exists_word white quote rest
          have shorter := (List.dropWhile_sublist (fun c => !isBlank c) (l := rest)).length_le
          obtain ⟨pieces, ending, reads⟩ := ih _ (Nat.lt_succ_of_le shorter) _ rfl
          have whole : c :: rest = w.chars ++ rest.dropWhile fun c => !isBlank c := by
            rw [chars, List.cons_append, List.takeWhile_append_dropWhile]
          rw [whole]
          exact ⟨_, _, .word w parted reads⟩

namespace Reads

variable {pieces : List Piece} {ending : Ending} {rest : List Char}

theorem of_nil (reads : Reads pieces ending []) : pieces = [] ∧ ending = .closed := by
  generalize line : [] = s at reads
  cases reads with
  | closed => exact ⟨rfl, rfl⟩
  | unclosed | blank | quoted | word => cases line

theorem of_blank {c : Char} (white : isBlank c = true) (reads : Reads pieces ending (c :: rest)) :
    ∃ others, pieces = .blank c white :: others ∧ Reads others ending rest := by
  generalize line : c :: rest = s at reads
  cases reads with
  | closed => cases line
  | blank d _ later =>
    obtain ⟨rfl, rfl⟩ := List.cons.inj line
    exact ⟨_, rfl, later⟩
  | unclosed | quoted =>
    rw [(List.cons.inj line).1, not_blank_quote] at white
    cases white
  | word w =>
    rw [(List.cons.inj line).1, w.not_blank] at white
    cases white

theorem of_quote {s : List Char} (reads : Reads pieces ending ('"' :: s)) :
    (∃ strokes lone, s = spelled strokes ++ lonely lone ∧ pieces = [] ∧
        ending = .unclosed strokes lone) ∨
      ∃ strokes after others, s = spelled strokes ++ '"' :: after ∧
        pieces = .lexeme (.quoted strokes) :: others ∧ Reads others ending after := by
  generalize line : '"' :: s = t at reads
  cases reads with
  | closed => cases line
  | unclosed strokes lone => exact .inl ⟨strokes, lone, (List.cons.inj line).2, rfl, rfl⟩
  | quoted strokes later => exact .inr ⟨strokes, _, _, (List.cons.inj line).2, rfl, later⟩
  | blank c white =>
    rw [← (List.cons.inj line).1, not_blank_quote] at white
    cases white
  | word w => exact absurd (List.cons.inj line).1.symm w.unquoted

theorem of_quoted {strokes : List Stroke}
    (reads : Reads pieces ending ('"' :: (spelled strokes ++ '"' :: rest))) :
    ∃ others, pieces = .lexeme (.quoted strokes) :: others ∧ Reads others ending rest := by
  obtain ⟨others, lone, same, _⟩ | ⟨others, after, later, same, rfl, reads⟩ := reads.of_quote
  · have stop := (spelled_inj (stops_quote rest) (stops_lonely lone) same).2
    exact absurd stop.symm (lonely_ne_quote lone rest)
  · obtain ⟨rfl, stop⟩ := spelled_inj (stops_quote rest) (stops_quote after) same
    cases stop
    exact ⟨later, rfl, reads⟩

theorem of_unclosed {strokes : List Stroke} {lone : Bool}
    (reads : Reads pieces ending ('"' :: (spelled strokes ++ lonely lone))) :
    pieces = [] ∧ ending = .unclosed strokes lone := by
  obtain ⟨others, only, same, rfl, rfl⟩ | ⟨others, after, later, same, _⟩ := reads.of_quote
  · obtain ⟨rfl, stop⟩ := spelled_inj (stops_lonely lone) (stops_lonely only) same
    cases lonely_inj stop
    exact ⟨rfl, rfl⟩
  · have stop := (spelled_inj (stops_lonely lone) (stops_quote after) same).2
    exact absurd stop (lonely_ne_quote lone after)

theorem of_word {w : Word} (parted : ∀ c ∈ rest.head?, isBlank c = true)
    (reads : Reads pieces ending (w.chars ++ rest)) :
    ∃ others, pieces = .lexeme (.word w) :: others ∧ Reads others ending rest := by
  generalize line : w.chars ++ rest = s at reads
  cases reads with
  | closed => cases line
  | blank c white =>
    rw [← (List.cons.inj line).1, w.not_blank] at white
    cases white
  | unclosed | quoted => exact absurd (List.cons.inj line).1 w.unquoted
  | word v parted' later =>
    obtain ⟨rfl, rfl⟩ := Word.chars_inj parted parted' line
    exact ⟨_, rfl, later⟩

/-- A line falls into pieces in one way only. -/
theorem unique {s : List Char} {others : List Piece} {last : Ending} (reads : Reads pieces ending s)
    (reads' : Reads others last s) : others = pieces ∧ last = ending := by
  induction reads generalizing others with
  | closed => exact reads'.of_nil
  | unclosed => exact reads'.of_unclosed
  | blank c white _ ih =>
    obtain ⟨_, rfl, later⟩ := reads'.of_blank white
    obtain ⟨rfl, rfl⟩ := ih later
    exact ⟨rfl, rfl⟩
  | quoted strokes _ ih =>
    obtain ⟨_, rfl, later⟩ := reads'.of_quoted
    obtain ⟨rfl, rfl⟩ := ih later
    exact ⟨rfl, rfl⟩
  | word w parted _ ih =>
    obtain ⟨_, rfl, later⟩ := reads'.of_word parted
    obtain ⟨rfl, rfl⟩ := ih later
    exact ⟨rfl, rfl⟩

theorem written {s : List Char} (reads : Reads pieces ending s) :
    s = writtenAs pieces ++ ending.written := by
  induction reads with
  | closed => rfl
  | unclosed => rfl
  | blank c white _ ih => rw [ih]; rfl
  | quoted strokes _ ih => simp [ih, writtenAs, Piece.written, Lexeme.written]
  | word w _ _ ih => simp [ih, writtenAs, Piece.written, Lexeme.written]

end Reads

theorem byteLength_append (s t : List Char) : byteLength (s ++ t) = byteLength s + byteLength t := by
  induction s with
  | nil => simp [byteLength]
  | cons c rest ih =>
    rw [List.cons_append, byteLength, ih, byteLength, Nat.add_assoc]

theorem utf8ByteSize_ofList (s : List Char) : (String.ofList s).utf8ByteSize = byteLength s := by
  induction s with
  | nil => rfl
  | cons c rest ih => simp [byteLength, ih]

theorem tokensFrom_blank (offset : Nat) {c : Char} (white : isBlank c = true) (rest : List Char) :
    tokensFrom offset (c :: rest) = tokensFrom (offset + c.utf8Size) rest := by
  rw [tokensFrom, if_pos white]

theorem tokensFrom_unclosed (offset : Nat) (strokes : List Stroke) (lone : Bool) :
    tokensFrom offset ('"' :: (spelled strokes ++ lonely lone)) =
      .error (.unterminatedQuote offset) := by
  rw [tokensFrom, if_neg (by simp [not_blank_quote]), if_pos rfl]
  split
  · rfl
  · rename_i closes
    rw [unquote_unclosed] at closes
    cases closes

theorem tokensFrom_quoted (offset : Nat) (strokes : List Stroke) (rest : List Char) :
    tokensFrom offset ('"' :: (spelled strokes ++ '"' :: rest)) =
      (tokensFrom (offset + byteLength (Lexeme.quoted strokes).written) rest).map
        ((Lexeme.quoted strokes).token :: ·) := by
  rw [tokensFrom, if_neg (by simp [not_blank_quote]), if_pos rfl]
  split
  · rename_i closes
    rw [unquote_closed] at closes
    cases closes
  · rename_i text after closes
    rw [unquote_closed] at closes
    cases closes
    have taken : byteLength ('"' :: (spelled strokes ++ '"' :: rest)) - byteLength rest =
        byteLength (Lexeme.quoted strokes).written := by
      simp only [Lexeme.written, byteLength, byteLength_append]
      omega
    rw [taken]
    rfl

theorem tokensFrom_word (offset : Nat) (w : Word) {rest : List Char}
    (parted : ∀ c ∈ rest.head?, isBlank c = true) :
    tokensFrom offset (w.chars ++ rest) =
      (tokensFrom (offset + byteLength w.chars) rest).map ((Lexeme.word w).token :: ·) := by
  obtain ⟨before, behind⟩ := w.split parted
  rw [Word.chars, List.cons_append, tokensFrom, if_neg (by simp [w.not_blank]), if_neg w.unquoted]
  dsimp only
  rw [before, behind]
  rfl

/-- The tokens of a line that is read as these pieces, or the complaint about the quote that the ending
leaves open. -/
def told (offset : Nat) (pieces : List Piece) : Ending → Except ParseError (List Token)
  | .closed => .ok ((lexemes pieces).map Lexeme.token)
  | .unclosed .. => .error (.unterminatedQuote (offset + byteLength (writtenAs pieces)))

theorem told_blank (offset : Nat) (c : Char) (white : isBlank c = true) (pieces : List Piece)
    (ending : Ending) :
    told offset (.blank c white :: pieces) ending = told (offset + c.utf8Size) pieces ending := by
  cases ending with
  | closed => rfl
  | unclosed => simp [told, writtenAs, Piece.written, byteLength, Nat.add_assoc]

theorem told_lexeme (offset : Nat) (l : Lexeme) (pieces : List Piece) (ending : Ending) :
    told offset (.lexeme l :: pieces) ending =
      (told (offset + byteLength l.written) pieces ending).map (l.token :: ·) := by
  cases ending with
  | closed => rfl
  | unclosed =>
    simp [told, writtenAs, Piece.written, byteLength_append, Nat.add_assoc, Except.map]

theorem tokensFrom_reads {pieces : List Piece} {ending : Ending} {s : List Char}
    (reads : Reads pieces ending s) (offset : Nat) :
    tokensFrom offset s = told offset pieces ending := by
  induction reads generalizing offset with
  | closed => rw [tokensFrom]; rfl
  | unclosed strokes lone => rw [tokensFrom_unclosed]; rfl
  | blank c white _ ih => rw [tokensFrom_blank offset white, ih, told_blank]
  | quoted strokes _ ih => rw [tokensFrom_quoted, ih, told_lexeme]
  | word w parted _ ih => rw [tokensFrom_word offset w parted, ih, told_lexeme]; rfl

theorem classify_symbol {word : List Char} {s : String} (symbol : classify word = .symbol s) :
    s = String.ofList word := by
  unfold classify at symbol
  split at symbol
  · split at symbol
    · cases symbol
    · split at symbol <;> cases symbol
      rfl
  · cases symbol
    rfl

theorem Lexeme.atom_eq (l : Lexeme) (plain : ¬ l.IsNumber) : l.atom = .symbol l.text := by
  cases l with
  | quoted strokes => rfl
  | word w =>
    obtain ⟨s, symbol⟩ : ∃ s, classify w.chars = .symbol s := by
      simpa [IsNumber] using plain
    rw [atom, symbol, classify_symbol symbol, text]

theorem parse_closed {pieces : List Piece} {line : String} (reads : Reads pieces .closed line.toList) :
    parse line = match lexemes pieces with
      | [] => .error .empty
      | first :: rest =>
        match first.atom with
        | .symbol selector => .ok ⟨selector, rest.map Lexeme.atom,
            String.intercalate " " (rest.map Lexeme.text)⟩
        | _ => .error (.numericSelector first.text) := by
  have read : tokens line.toList = .ok ((lexemes pieces).map Lexeme.token) :=
    tokensFrom_reads reads 0
  rw [parse, read]
  cases lexemes pieces with
  | nil => rfl
  | cons first rest =>
    simp only [bind, Except.bind, List.map_cons, List.map_map]
    rfl

theorem parse_number {pieces : List Piece} {line : String} {first : Lexeme} {rest : List Lexeme}
    (reads : Reads pieces .closed line.toList) (begins : lexemes pieces = first :: rest)
    (number : first.IsNumber) : parse line = .error (.numericSelector first.text) := by
  rw [parse_closed reads, begins]
  cases first with
  | quoted => exact number.elim
  | word w =>
    dsimp only
    split
    · rename_i selector symbol
      exact absurd symbol (number selector)
    · rfl

theorem parse_selector {pieces : List Piece} {line : String} {first : Lexeme} {rest : List Lexeme}
    (reads : Reads pieces .closed line.toList) (begins : lexemes pieces = first :: rest)
    (plain : ¬ first.IsNumber) :
    parse line = .ok ⟨first.text, rest.map Lexeme.atom,
      String.intercalate " " (rest.map Lexeme.text)⟩ := by
  rw [parse_closed reads, begins]
  dsimp only
  rw [first.atom_eq plain]

theorem parse_empty_iff {pieces : List Piece} {line : String}
    (reads : Reads pieces .closed line.toList) :
    parse line = .error .empty ↔ lexemes pieces = [] := by
  cases begins : lexemes pieces with
  | nil => simp [parse_closed reads, begins]
  | cons first rest =>
    by_cases number : first.IsNumber
    · simp [parse_number reads begins number]
    · simp [parse_selector reads begins number]

theorem parse_numericSelector_iff {pieces : List Piece} {line : String}
    (reads : Reads pieces .closed line.toList) (found : String) :
    parse line = .error (.numericSelector found) ↔
      ∃ w rest, lexemes pieces = .word w :: rest ∧ (Lexeme.word w).IsNumber ∧
        found = String.ofList w.chars := by
  constructor
  · intro refused
    cases begins : lexemes pieces with
    | nil =>
      rw [(parse_empty_iff reads).mpr begins] at refused
      cases refused
    | cons first rest =>
      by_cases number : first.IsNumber
      · rw [parse_number reads begins number] at refused
        cases refused
        cases first with
        | quoted => exact number.elim
        | word w => exact ⟨w, rest, rfl, number, rfl⟩
      · rw [parse_selector reads begins number] at refused
        cases refused
  · rintro ⟨w, rest, begins, number, rfl⟩
    exact parse_number reads begins number

theorem parse_unclosed {pieces : List Piece} {line : String} {strokes : List Stroke} {lone : Bool}
    (reads : Reads pieces (.unclosed strokes lone) line.toList) :
    parse line = .error (.unterminatedQuote (String.ofList (writtenAs pieces)).utf8ByteSize) := by
  have read : tokens line.toList = .error (.unterminatedQuote (0 + byteLength (writtenAs pieces))) :=
    tokensFrom_reads reads 0
  rw [parse, read, Nat.zero_add, utf8ByteSize_ofList]
  rfl

/-- Every line falls into blanks, words and quoted texts in one way, and that tells its message. A quoted
text that never closes is complained about at the byte of its quote, whatever stands before it. Else a
line without words or quoted texts is empty, one that starts with a number has no selector, and any other
one is a message, whose source is the texts of its arguments with single spaces between them. -/
theorem parse_reads (line : String) :
    ∃ pieces ending, Reads pieces ending line.toList ∧
      line.toList = writtenAs pieces ++ ending.written ∧
      (∀ others last, Reads others last line.toList → others = pieces ∧ last = ending) ∧
      (∀ strokes lone, ending = .unclosed strokes lone →
        parse line = .error (.unterminatedQuote (String.ofList (writtenAs pieces)).utf8ByteSize)) ∧
      (ending = .closed →
        (parse line = .error .empty ↔ lexemes pieces = []) ∧
        (∀ found, parse line = .error (.numericSelector found) ↔
          ∃ w rest, lexemes pieces = .word w :: rest ∧ (Lexeme.word w).IsNumber ∧
            found = String.ofList w.chars) ∧
        (∀ first rest, lexemes pieces = first :: rest → ¬ first.IsNumber →
          parse line = .ok ⟨first.text, rest.map Lexeme.atom,
            String.intercalate " " (rest.map Lexeme.text)⟩)) := by
  obtain ⟨pieces, ending, reads⟩ := exists_reads line.toList
  refine ⟨pieces, ending, reads, reads.written, fun _ _ => reads.unique, ?_, ?_⟩
  · rintro strokes lone rfl
    exact parse_unclosed reads
  · rintro rfl
    exact ⟨parse_empty_iff reads, parse_numericSelector_iff reads,
      fun _ _ begins plain => parse_selector reads begins plain⟩

example : parse "say \"a\\\"b\\n\"x 1" =
    .ok ⟨"say", [.symbol "a\"b\\n", .symbol "x", .int 1], "a\"b\\n x 1"⟩ := by cbv

end Patchbay.Message
