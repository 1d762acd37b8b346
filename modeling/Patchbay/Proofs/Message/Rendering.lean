import Patchbay.Proofs.Message.Classification
import Patchbay.Proofs.Message.Spacing
import Mathlib.Data.List.Forall2
import Mathlib.Data.Set.List

/-!
Messages built from atoms, written and read again. An integer is written as figures and stays one; a float
is written without an exponent, so that it comes back as a float unless its text is a whole number that an
integer can hold; and a symbol stays what it is unless it is empty, has a blank in it, begins with a quote
or is a number. Such symbols, and floats that are not finite, are not spoken of here.
-/
namespace Patchbay.Message

open Binary Decimal Text

def IsInteger (s : List Char) (n : Int) : Prop :=
  ∃ negative digits, Figures digits ∧ s = minus negative ++ digits ∧
    n = if negative then -(natOfDigits digits : Int) else natOfDigits digits

theorem IsInteger.text {s : List Char} {n : Int} (whole : IsInteger s n) : IntegerText n s := by
  obtain ⟨negative, digits, figures, rfl, value⟩ := whole
  cases negative with
  | false => exact .mk .none figures value
  | true => exact .mk .minus figures value

theorem IsInteger.unique {s : List Char} {n k : Int} (mine : IsInteger s n) (yours : IsInteger s k) : n = k :=
  mine.text.eq_value.trans yours.text.eq_value.symm

theorem isInteger_toString (n : Int) : IsInteger (toString n).toList n := by
  refine ⟨decide (n < 0), _, figures_written n.natAbs, written_int n, ?_⟩
  rw [natOfDigits_written]
  simp only [decide_eq_true_eq]
  split <;> omega

theorem pointed_not_integer {s part : List Char} (negative : Bool) (n : Int) :
    ¬ IsInteger (minus negative ++ (s ++ '.' :: part)) n := by
  rintro ⟨other, digits, figures, same, rfl⟩
  have point : '.' ∈ minus other ++ digits := same ▸ by simp
  rcases List.mem_append.mp point with sign | digit
  · cases other <;> simp [minus] at sign
  · have wrong := figures.2 '.' digit
    cases wrong

/-- What an atom is once it was written and read: itself, but for a float whose text is a decimal integer
of sixty-four bits, which is the integer of its digits. -/
inductive Returns : Atom → Atom → Prop
  | int (n : Int64) : Returns (.int n) (.int n)
  | symbol (s : String) : Returns (.symbol s) (.symbol s)
  | whole {x : Single} {n : Int} (digits : IsInteger (Atom.float x).text.toList n) (fits : Fits n) :
      Returns (.float x) (.int (Int64.ofInt n))
  | float {x : Single} (other : ∀ n, IsInteger (Atom.float x).text.toList n → ¬ Fits n) :
      Returns (.float x) (.float x)

/-- Neither empty nor with a blank in it, nor beginning with a quote, nor a number. -/
structure Bare (s : String) : Prop where
  solid : Solid s.toList
  unquoted : s.toList.head? ≠ some '"'
  wordy : numeral? s.toList = none

instance (s : String) : Decidable (Bare s) :=
  decidable_of_iff (Solid s.toList ∧ s.toList.head? ≠ some '"' ∧ numeral? s.toList = none)
    ⟨fun ⟨solid, unquoted, wordy⟩ => ⟨solid, unquoted, wordy⟩,
      fun bare => ⟨bare.solid, bare.unquoted, bare.wordy⟩⟩

/-- What is needed of an atom: a float is finite, and a symbol bare. -/
def Plain : Atom → Prop
  | .int _ => True
  | .float x => ∃ negative m q, x.datum = .finite negative m q
  | .symbol s => Bare s

theorem classify_int (n : Int64) : classify (Atom.int n).text.toList = .int n := by
  have whole : IsInteger (Atom.int n).text.toList n.toInt := isInteger_toString n.toInt
  rw [classify_eq, integer?_eq_some_iff.mpr whole.text]

/-- A finite float comes back as itself, or as the integer that its text is. -/
theorem float_returns {x : Single} {negative : Bool} {m : Nat} {q : Int}
    (finite : x.datum = .finite negative m q) :
    Returns (.float x) (classify (Atom.float x).text.toList) := by
  have read := single?_render finite
  obtain ⟨s, v, p, written, spells, _⟩ := render_finite finite
  change (Atom.float x).text.toList = _ at written
  change single? (Atom.float x).text.toList = _ at read
  cases spells with
  | whole figures _ value =>
    have whole : IsInteger (Atom.float x).text.toList _ := ⟨negative, s, figures, written, rfl⟩
    rw [classify_decimal read, whole.text.integer?]
    by_cases fits : Fits (if negative then -(natOfDigits s : Int) else natOfDigits s)
    · rw [if_pos fits]
      exact .whole whole fits
    · rw [if_neg fits]
      exact .float fun n other => whole.unique other ▸ fits
  | @pointed s part figures _ places value =>
    have none : integer? (Atom.float x).text.toList = none := by
      rw [written, integer?_pointed figures]
    rw [classify_decimal read, none]
    exact .float fun n other => absurd (written ▸ other) (pointed_not_integer negative n)

theorem plain_returns {a : Atom} (plain : Plain a) : Returns a (classify a.text.toList) := by
  cases a with
  | int n =>
    rw [classify_int]
    exact .int n
  | float x =>
    obtain ⟨negative, m, q, finite⟩ := plain
    exact float_returns finite
  | symbol s =>
    rw [Atom.text, classify_word plain.wordy, String.ofList_toList]
    exact .symbol s

theorem number_word {s : List Char} (negative : Bool) (some : s ≠ [])
    (chars : ∀ c ∈ s, isDigit c = true ∨ c = '.') : ∃ w : Word, w.chars = minus negative ++ s := by
  have number : ∀ c ∈ minus negative ++ s, c ≠ '"' ∧ isBlank c = false := by
    intro c member
    rcases List.mem_append.mp member with sign | inside
    · rw [mem_minus sign]
      decide
    · rcases chars c inside with digit | rfl
      · refine ⟨?_, digit_not_blank digit⟩
        rintro rfl
        cases digit
      · decide
  obtain ⟨c, rest, whole⟩ := List.exists_cons_of_ne_nil (List.append_ne_nil_of_right_ne_nil (minus negative) some)
  rw [whole] at number ⊢
  exact ⟨⟨c, rest, (number c List.mem_cons_self).1, fun d member => (number d member).2⟩, rfl⟩

theorem plain_word {a : Atom} (plain : Plain a) : ∃ w : Word, w.chars = a.text.toList := by
  cases a with
  | int n =>
    obtain ⟨negative, digits, figures, written, _⟩ := isInteger_toString n.toInt
    change (Atom.int n).text.toList = _ at written
    rw [written]
    exact number_word negative figures.1 fun c member => .inl (figures.2 c member)
  | float x =>
    obtain ⟨negative, m, q, finite⟩ := plain
    obtain ⟨s, v, p, written, spells, _⟩ := render_finite finite
    change (Atom.float x).text.toList = _ at written
    rw [written]
    exact number_word negative spells.chars.1 spells.chars.2
  | symbol s =>
    rw [Atom.text]
    have bare : Bare s := plain
    obtain ⟨c, rest, whole⟩ := List.exists_cons_of_ne_nil bare.solid.1
    have unquoted := bare.unquoted
    have solid := bare.solid.2
    rw [whole] at unquoted solid ⊢
    exact ⟨⟨c, rest, by simpa using unquoted, solid⟩, rfl⟩

/-- A message built from a bare selector and plain atoms has a text that is read as a message again, with
the same selector, the same source, and for each atom in its place what it comes back as. -/
theorem built_message_returns {selector : String} {args : List Atom} (bare : Bare selector)
    (plain : ∀ a ∈ args, Plain a) :
    ∃ m, parse (ofAtoms selector args).text = .ok m ∧ m.selector = selector ∧
      m.source = (ofAtoms selector args).source ∧ List.Forall₂ Returns args m.args := by
  obtain ⟨first, named⟩ : ∃ w : Word, w.chars = selector.toList := plain_word (a := .symbol selector) bare
  obtain ⟨ws, texts⟩ : ∃ ws : List Word, ws.map Word.chars = args.map fun a => a.text.toList := by
    change args.map _ ∈ Set.range (List.map Word.chars)
    rw [Set.range_list_map]
    intro w member
    obtain ⟨a, inside, rfl⟩ := List.mem_map.mp member
    exact plain_word (plain a inside)
  have solid : ∀ w ∈ ws.map Word.chars, Solid w := by
    intro v member
    obtain ⟨w, _, rfl⟩ := List.mem_map.mp member
    exact w.is_solid
  have strings : (ws.map Word.chars).map String.ofList = args.map Atom.text := by
    rw [texts, List.map_map]
    simp [Function.comp_def]
  have source : (ofAtoms selector args).source = String.ofList (spaced (ws.map Word.chars)) := by
    rw [← intercalate_ofList, strings]
    rfl
  have name : String.ofList first.chars = selector := by rw [named, String.ofList_toList]
  have text : (ofAtoms selector args).text = String.ofList (spaced ((first :: ws).map Word.chars)) := by
    rw [List.map_cons, ← text_of_words first.chars solid args, name, ← source]
    rfl
  obtain ⟨pieces, reads, read⟩ : ∃ pieces, Reads pieces .closed (ofAtoms selector args).text.toList ∧
      lexemes pieces = (first :: ws).map .word := by
    apply reads_of_words
    rw [text, String.toList_ofList, words_spaced]
    exact List.forall_mem_cons.mpr ⟨first.is_solid, solid⟩
  have wordy : ¬ (Lexeme.word first).IsNumber := by
    intro number
    exact number _ (classify_word (named ▸ bare.wordy))
  have atoms : (ws.map Lexeme.word).map Lexeme.atom = args.map fun a => classify a.text.toList := by
    have classified := congrArg (List.map classify) texts
    rw [List.map_map, List.map_map] at classified
    rw [List.map_map]
    exact classified
  refine ⟨_, parse_selector reads read wordy, name, ?_, ?_⟩
  · have lexemes : (ws.map Lexeme.word).map Lexeme.text = (ws.map Word.chars).map String.ofList := by
      rw [List.map_map, List.map_map]
      rfl
    rw [lexemes, source, ← intercalate_ofList]
  · rw [atoms, List.forall₂_map_right_iff, List.forall₂_same]
    exact fun a member => plain_returns (plain a member)

/-- A float that is a whole number comes back as an integer, the sign of a zero is lost with it, and one
whose text is beyond sixty-four bits stays a float. -/
theorem whole_floats_returned :
    let args := [.symbol "x=", .int (-7), .float ⟨0x40400000⟩, .float ⟨0x80000000⟩, .float ⟨0x5F800000⟩]
    ∃ m, parse (ofAtoms "set" args).text = .ok m ∧ m.selector = "set" ∧
      m.source = "x= -7 3 -0 18446744000000000000" ∧ List.Forall₂ Returns args m.args := by
  intro args
  have bare : Bare "set" := by decide +kernel
  have plain : ∀ a ∈ args, Plain a := by
    have symbol : Bare "x=" := by decide +kernel
    simp only [args, List.forall_mem_cons]
    exact ⟨symbol, trivial, ⟨_, _, _, rfl⟩, ⟨_, _, _, rfl⟩, ⟨_, _, _, rfl⟩, nofun⟩
  obtain ⟨m, parsed, name, source, returned⟩ := built_message_returns bare plain
  refine ⟨m, parsed, name, source.trans ?_, returned⟩
  decide +kernel

end Patchbay.Message
