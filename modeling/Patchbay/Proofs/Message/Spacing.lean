import Patchbay.Proofs.Message.Grammar
import Mathlib.Data.List.DropRight

/-!
Lines without quoted texts. Such a line is its words, one after the other: it is read as they say,
whatever blanks stand between them, and the text of the message is the line with its blanks evened out,
which is read as the same message again. A quote within a word is a character like any other.
-/
namespace Patchbay.Message

open Text

/-- The words of a line: the runs of characters between its blanks. -/
def words (s : List Char) : List (List Char) := (s.splitOnP isBlank).filter fun w => !w.isEmpty

def evened : List Char → List Char
  | [] => []
  | [c] => [if isBlank c then ' ' else c]
  | c :: d :: rest =>
    if isBlank c then
      if isBlank d then evened (d :: rest) else ' ' :: evened (d :: rest)
    else c :: evened (d :: rest)

def spaced (ws : List (List Char)) : List Char := List.intercalate [' '] ws

theorem words_nil : words [] = [] := by simp [words, List.splitOnP_nil]

theorem words_append_blank {c : Char} (white : isBlank c = true) (s t : List Char) :
    words (s ++ c :: t) = words s ++ words t := by
  rw [words, List.splitOnP_append_cons s t white, List.filter_append, words, words]

theorem words_blank {c : Char} (white : isBlank c = true) (s : List Char) : words (c :: s) = words s := by
  have apart := words_append_blank white [] s
  rwa [words_nil, List.nil_append] at apart

theorem words_behind_blanks {gap : List Char} (white : ∀ c ∈ gap, isBlank c = true) (s : List Char) :
    words (gap ++ s) = words s := by
  induction gap with
  | nil => rfl
  | cons c gap ih =>
    rw [List.cons_append, words_blank (white c List.mem_cons_self)]
    exact ih fun c member => white c (List.mem_cons_of_mem _ member)

theorem words_before_blanks {gap : List Char} (white : ∀ c ∈ gap, isBlank c = true) (s : List Char) :
    words (s ++ gap) = words s := by
  cases gap with
  | nil => rw [List.append_nil]
  | cons c gap =>
    have none := words_behind_blanks (fun c member => white c (List.mem_cons_of_mem _ member)) []
    rw [List.append_nil, words_nil] at none
    rw [words_append_blank (white c List.mem_cons_self), none, List.append_nil]

def Solid (w : List Char) : Prop := w ≠ [] ∧ ∀ c ∈ w, isBlank c = false

instance (w : List Char) : Decidable (Solid w) :=
  decidable_of_iff (w ≠ [] ∧ w.all (!isBlank ·) = true) (by simp [Solid])

theorem words_solid {w : List Char} (solid : Solid w) : words w = [w] := by
  rw [words, List.splitOnP_eq_singleton solid.2]
  simp [solid.1]

theorem words_cons {w rest : List Char} (solid : Solid w)
    (parted : ∀ c ∈ rest.head?, isBlank c = true) : words (w ++ rest) = w :: words rest := by
  cases rest with
  | nil => rw [List.append_nil, words_solid solid, words_nil]
  | cons c rest =>
    have white := parted c rfl
    rw [words_append_blank white, words_solid solid, words_blank white]
    rfl

theorem words_spaced {ws : List (List Char)} (solid : ∀ w ∈ ws, Solid w) : words (spaced ws) = ws := by
  induction ws with
  | nil => exact words_nil
  | cons w ws ih =>
    obtain ⟨first, others⟩ := List.forall_mem_cons.mp solid
    cases ws with
    | nil => rw [spaced, List.intercalate_singleton, words_solid first]
    | cons v ws =>
      have rest := ih others
      rw [spaced] at rest ⊢
      rw [List.intercalate_cons_cons, List.append_assoc, List.singleton_append,
        words_append_blank (by decide), words_solid first, rest]
      rfl

theorem evened_solid {w : List Char} (solid : ∀ c ∈ w, isBlank c = false) (s : List Char) :
    evened (w ++ s) = w ++ evened s := by
  induction w with
  | nil => rfl
  | cons c w ih =>
    obtain ⟨first, others⟩ := List.forall_mem_cons.mp solid
    rw [List.cons_append, List.cons_append, ← ih others]
    cases w ++ s <;> simp [evened, first]

theorem evened_blanks {gap : List Char} (some : gap ≠ []) (white : ∀ c ∈ gap, isBlank c = true)
    {d : Char} (solid : isBlank d = false) (s : List Char) :
    evened (gap ++ d :: s) = ' ' :: evened (d :: s) := by
  induction gap with
  | nil => exact absurd rfl some
  | cons c gap ih =>
    obtain ⟨first, others⟩ := List.forall_mem_cons.mp white
    cases gap with
    | nil => simp [evened, first, solid]
    | cons e gap =>
      rw [← ih (List.cons_ne_nil _ _) others]
      simp [evened, first, others e List.mem_cons_self]

/-- A line of these words, with some blanks between each and the next. -/
inductive Spread : List (List Char) → List Char → Prop
  | last {w : List Char} (solid : Solid w) : Spread [w] w
  | more {w gap s : List Char} {ws : List (List Char)} (solid : Solid w) (some : gap ≠ [])
      (white : ∀ c ∈ gap, isBlank c = true) (rest : Spread ws s) : Spread (w :: ws) (w ++ (gap ++ s))

namespace Spread

variable {ws : List (List Char)} {s : List Char}

theorem head_solid (spread : Spread ws s) : ∃ d rest, s = d :: rest ∧ isBlank d = false := by
  cases spread with
  | last solid | more solid =>
    obtain ⟨d, w, rfl⟩ := List.exists_cons_of_ne_nil solid.1
    exact ⟨d, _, rfl, solid.2 d List.mem_cons_self⟩

theorem words (spread : Spread ws s) : words s = ws := by
  induction spread with
  | last solid => exact words_solid solid
  | more solid some white _ ih =>
    obtain ⟨c, gap, rfl⟩ := List.exists_cons_of_ne_nil some
    have parted : isBlank c = true := white c List.mem_cons_self
    rw [words_cons solid (by simp [parted]), words_behind_blanks white, ih]

theorem evened (spread : Spread ws s) : evened s = spaced ws := by
  induction spread with
  | @last w solid =>
    have whole := evened_solid solid.2 []
    rw [List.append_nil, Message.evened, List.append_nil] at whole
    rw [whole, spaced, List.intercalate_singleton]
  | @more w gap s ws solid some white rest ih =>
    obtain ⟨d, t, rfl, first⟩ := rest.head_solid
    rw [evened_solid solid.2, evened_blanks some white first, ih]
    obtain _ | ⟨v, vs⟩ := ws
    · cases rest
    · rw [spaced, spaced, List.intercalate_cons_cons, List.append_assoc]
      rfl

end Spread

theorem exists_run (blank : Bool) (s : List Char) :
    ∃ run rest, s = run ++ rest ∧ (∀ c ∈ run, isBlank c = blank) ∧ ∀ c ∈ rest.head?, isBlank c = !blank := by
  refine ⟨s.takeWhile (isBlank · == blank), s.dropWhile (isBlank · == blank),
    List.takeWhile_append_dropWhile.symm, ?_, ?_⟩
  · intro c member
    simpa using List.mem_takeWhile_imp member
  · intro c first
    have stopped := List.head?_dropWhile_not (isBlank · == blank) s
    rw [Option.mem_def.mp first] at stopped
    cases blank <;> simpa using stopped

theorem exists_spread {c : Char} {s : List Char} (starts : isBlank c = false)
    (ends : ∀ b ∈ (c :: s).getLast?, isBlank b = false) : ∃ ws, Spread ws (c :: s) := by
  induction bound : s.length using Nat.strong_induction_on generalizing c s with
  | _ n ih =>
    obtain ⟨w, rest, rfl, solid, parted⟩ := exists_run false s
    obtain ⟨gap, later, rfl, white, solid'⟩ := exists_run true rest
    have word : Solid (c :: w) := ⟨List.cons_ne_nil _ _, List.forall_mem_cons.mpr ⟨starts, solid⟩⟩
    rw [← List.cons_append] at ends ⊢
    cases later with
    | nil =>
      rw [List.append_nil] at ends ⊢
      -- Blanks behind the last word would end the line.
      rcases List.eq_nil_or_concat gap with rfl | ⟨before, b, rfl⟩
      · rw [List.append_nil]
        exact ⟨_, .last word⟩
      · have last := ends b (by rw [List.concat_eq_append, ← List.append_assoc, List.getLast?_concat]; rfl)
        rw [white b (by simp)] at last
        cases last
    | cons d later =>
      have some : gap ≠ [] := by
        rintro rfl
        have first := solid' d rfl
        rw [parted d rfl] at first
        cases first
      have last : ∀ b ∈ (d :: later).getLast?, isBlank b = false := by
        intro b member
        apply ends b
        rwa [List.getLast?_append_of_ne_nil _ (by simp), List.getLast?_append_of_ne_nil _ (by simp)]
      obtain ⟨ws, rest⟩ := ih later.length (by simp at bound; omega) (solid' d rfl) last rfl
      exact ⟨_, .more word some white rest⟩

theorem words_trim (s : List Char) : words (trim s) = words s := by
  have start : words (trimStart s) = words s := by
    have blank : ∀ c ∈ s.takeWhile isBlank, isBlank c = true := fun _ => List.mem_takeWhile_imp
    rw [trimStart, ← words_behind_blanks blank, List.takeWhile_append_dropWhile]
  have ending : words (trimEnd (trimStart s)) = words (trimStart s) := by
    have blank : ∀ c ∈ (trimStart s).rtakeWhile isBlank, isBlank c = true :=
      fun _ => List.mem_rtakeWhile_imp
    rw [← words_before_blanks blank]
    exact congrArg words List.rdropWhile_append_rtakeWhile
  exact ending.trans start

theorem head_trim {c : Char} {rest s : List Char} (trimmed : trim s = c :: rest) : isBlank c = false := by
  obtain ⟨more, whole⟩ : trim s <+: trimStart s := List.rdropWhile_prefix isBlank _
  have stopped := List.head?_dropWhile_not isBlank s
  rw [← trimStart, ← whole, trimmed] at stopped
  simpa using stopped

theorem last_trim {s : List Char} : ∀ b ∈ (trim s).getLast?, isBlank b = false := by
  intro b member
  obtain ⟨some, rfl⟩ := List.mem_getLast?_eq_getLast member
  have last : ¬ isBlank ((trim s).getLast some) = true :=
    List.rdropWhile_last_not isBlank (trimStart s) some
  simpa using last

/-- The words of a line with single spaces between them are the line without the blanks around it, once
the blanks within it are evened out. -/
theorem spaced_words (s : List Char) : spaced (words s) = evened (trim s) := by
  rw [← words_trim]
  cases trimmed : trim s with
  | nil =>
    rw [words_nil]
    rfl
  | cons c rest =>
    obtain ⟨ws, spread⟩ := exists_spread (head_trim trimmed) (trimmed ▸ last_trim)
    rw [spread.words, spread.evened]

theorem Word.is_solid (w : Word) : Solid w.chars := ⟨List.cons_ne_nil _ _, w.solid⟩

theorem words_quote (s : List Char) : ∃ v vs, words ('"' :: s) = ('"' :: v) :: vs := by
  obtain ⟨v, rest, rfl, solid, parted⟩ := exists_run false s
  have word : Solid ('"' :: v) :=
    ⟨List.cons_ne_nil _ _, List.forall_mem_cons.mpr ⟨not_blank_quote, solid⟩⟩
  exact ⟨v, _, words_cons word parted⟩

def Unquoted (s : List Char) : Prop :=
  ∀ pieces ending, Reads pieces ending s → ∀ strokes, .lexeme (.quoted strokes) ∉ pieces

theorem unquoted_of_words {s : List Char} (bare : ∀ w ∈ words s, w.head? ≠ some '"') : Unquoted s := by
  intro pieces ending reads strokes inside
  have unquoted (s : List Char) (bare : ∀ w ∈ words ('"' :: s), w.head? ≠ some '"') : False := by
    obtain ⟨v, vs, quoted⟩ := words_quote s
    rw [quoted] at bare
    exact bare _ List.mem_cons_self rfl
  induction reads with
  | closed => cases inside
  | unclosed => exact unquoted _ bare
  | blank c white _ ih =>
    rw [words_blank white] at bare
    exact ih bare (List.mem_of_ne_of_mem (by simp) inside)
  | quoted => exact unquoted _ bare
  | word w parted _ ih =>
    rw [words_cons w.is_solid parted] at bare
    exact ih (List.forall_mem_cons.mp bare).2 (List.mem_of_ne_of_mem (by simp) inside)

theorem Reads.words {pieces : List Piece} {ending : Ending} {s : List Char}
    (reads : Reads pieces ending s) (closed : ending = .closed)
    (bare : ∀ strokes, .lexeme (.quoted strokes) ∉ pieces) :
    ∃ ws : List Word, lexemes pieces = ws.map .word ∧ words s = ws.map Word.chars := by
  induction reads with
  | closed => exact ⟨[], rfl, words_nil⟩
  | unclosed => cases closed
  | blank c white _ ih =>
    obtain ⟨ws, read, same⟩ := ih closed fun strokes inside => bare strokes (List.mem_cons_of_mem _ inside)
    exact ⟨ws, read, by rw [words_blank white, same]⟩
  | quoted strokes => exact absurd List.mem_cons_self (bare strokes)
  | word w parted _ ih =>
    obtain ⟨ws, read, same⟩ := ih closed fun strokes inside => bare strokes (List.mem_cons_of_mem _ inside)
    refine ⟨w :: ws, ?_, ?_⟩
    · rw [List.map_cons, ← read]
      rfl
    · rw [words_cons w.is_solid parted, same, List.map_cons]

theorem reads_of_words {s : List Char} {ws : List Word} (same : words s = ws.map Word.chars) :
    ∃ pieces, Reads pieces .closed s ∧ lexemes pieces = ws.map .word := by
  obtain ⟨pieces, ending, reads⟩ := exists_reads s
  have unquoted (s : List Char) (vs : List Word) : words ('"' :: s) ≠ vs.map Word.chars := by
    obtain ⟨v, others, quoted⟩ := words_quote s
    rw [quoted]
    intro same
    obtain ⟨w, _, rfl, first, _⟩ := List.map_eq_cons_iff.mp same.symm
    exact w.unquoted (List.cons.inj first).1
  induction reads generalizing ws with
  | closed =>
    obtain rfl : ws = [] := by simpa [words_nil] using same.symm
    exact ⟨[], .closed, rfl⟩
  | unclosed => exact absurd same (unquoted _ ws)
  | blank c white _ ih =>
    obtain ⟨pieces, reads, read⟩ := ih (words_blank white _ ▸ same)
    exact ⟨_, .blank c white reads, read⟩
  | quoted => exact absurd same (unquoted _ ws)
  | word w parted _ ih =>
    rw [words_cons w.is_solid parted] at same
    obtain ⟨v, vs, rfl, first, others⟩ := List.map_eq_cons_iff.mp same.symm
    obtain ⟨rfl, _⟩ := Word.chars_inj (s := []) (t := []) nofun nofun (congrArg (· ++ []) first)
    obtain ⟨pieces, reads, read⟩ := ih others.symm
    refine ⟨_, .word v parted reads, ?_⟩
    rw [List.map_cons, ← read]
    rfl

/-- Lines of the same words say the same, if none of the words begins with a quote. -/
theorem parse_of_words {line other : String} {ws : List Word}
    (mine : words line.toList = ws.map Word.chars) (yours : words other.toList = ws.map Word.chars) :
    parse other = parse line := by
  obtain ⟨pieces, reads, read⟩ := reads_of_words mine
  obtain ⟨pieces', reads', read'⟩ := reads_of_words yours
  rw [parse_closed reads, parse_closed reads', read, read']

theorem intercalate_ofList (ws : List (List Char)) :
    String.intercalate " " (ws.map String.ofList) = String.ofList (spaced ws) := by
  apply String.toList_inj.mp
  rw [String.toList_intercalate, String.toList_ofList, List.map_map, spaced]
  simp [Function.comp_def]

theorem text_of_words (selector : List Char) {rest : List (List Char)} (solid : ∀ w ∈ rest, Solid w)
    (args : List Atom) :
    (Message.mk (String.ofList selector) args (String.ofList (spaced rest))).text =
      String.ofList (spaced (selector :: rest)) := by
  cases rest with
  | nil => simp [text, spaced]
  | cons w rest =>
    have some : (String.ofList (spaced (w :: rest))).isEmpty = false := by
      have first := (solid w List.mem_cons_self).1
      cases rest <;> simp [spaced, first]
    rw [text, some]
    apply String.toList_inj.mp
    rw [spaced, spaced, List.intercalate_cons_cons]
    simp

/-- A line in which no token begins with a quote is kept up to its blanks. The source of its message is
the words behind the selector as they are written, the text of the message is the line without the blanks
around it and with a single space for each run of blanks within it, and both this text and any other line
of the same words are read as the same message. -/
theorem spacing_never_shows {line : String} {m : Message} (parsed : parse line = .ok m)
    (bare : Unquoted line.toList) :
    (∃ first rest, words line.toList = first :: rest ∧ m.selector = String.ofList first ∧
        m.source = String.ofList (spaced rest)) ∧
      m.text = String.ofList (evened (trim line.toList)) ∧
      parse m.text = .ok m ∧
      ∀ other : String, words other.toList = words line.toList → parse other = .ok m := by
  obtain ⟨pieces, ending, reads⟩ := exists_reads line.toList
  cases ending with
  | unclosed strokes lone =>
    rw [parse_unclosed reads] at parsed
    cases parsed
  | closed =>
    obtain ⟨ws, read, same⟩ := reads.words rfl (bare pieces .closed reads)
    cases ws with
    | nil =>
      rw [(parse_empty_iff reads).mpr read] at parsed
      cases parsed
    | cons w ws =>
      have plain : ¬ (Lexeme.word w).IsNumber := by
        intro number
        rw [parse_number reads read number] at parsed
        cases parsed
      have texts : (ws.map Lexeme.word).map Lexeme.text = (ws.map Word.chars).map String.ofList := by
        rw [List.map_map, List.map_map]
        rfl
      have message : m = ⟨String.ofList w.chars, (ws.map .word).map Lexeme.atom,
          String.ofList (spaced (ws.map Word.chars))⟩ := by
        rw [parse_selector reads read plain, texts, intercalate_ofList] at parsed
        exact (Except.ok.inj parsed).symm
      have solid : ∀ v ∈ ws.map Word.chars, Solid v := by
        intro v member
        obtain ⟨w, _, rfl⟩ := List.mem_map.mp member
        exact w.is_solid
      have text : m.text = String.ofList (spaced (words line.toList)) := by
        rw [message, text_of_words w.chars solid, same]
        rfl
      have again : words m.text.toList = (w :: ws).map Word.chars := by
        rw [text, String.toList_ofList, same, words_spaced]
        exact List.forall_mem_cons.mpr ⟨w.is_solid, solid⟩
      refine ⟨⟨w.chars, ws.map Word.chars, same, ?_, ?_⟩, ?_, ?_, ?_⟩
      · rw [message]
      · rw [message]
      · rw [text, spaced_words]
      · rw [parse_of_words same again, parsed]
      · intro other alike
        rw [parse_of_words same (alike.trans same), parsed]

/-- A sign, zeros in front and a quote within a word stay; a tab and a wide blank do not. -/
theorem wide_line_kept :
    let line := " exec\t-007  say\"hi\"\u3000x "
    let m : Message := ⟨"exec", [.int (-7), .symbol "say\"hi\"", .symbol "x"], "-007 say\"hi\" x"⟩
    parse line = .ok m ∧ Unquoted line.toList ∧ m.text = "exec -007 say\"hi\" x" ∧
      parse m.text = .ok m := by
  intro line m
  have parsed : parse line = .ok m := by decide +kernel
  have bare : Unquoted line.toList := unquoted_of_words (by decide +kernel)
  exact ⟨parsed, bare, by decide +kernel, (spacing_never_shows parsed bare).2.2.1⟩

end Patchbay.Message
