import Patchbay.Proofs.Host.Handling
import Patchbay.Proofs.Message.Grammar

/-!
Texts that are put between quotes. A line carries every text unchanged, whatever its characters, once
its quotes and backslashes stand behind backslashes. Such a text is never taken for a number, and it
needs no blank on either side.
-/
namespace Patchbay

open Text

namespace Message

def escape (c : Char) : List Char := if c = '"' ∨ c = '\\' then ['\\', c] else [c]

def quote (s : String) : String := String.ofList ('"' :: (s.toList.flatMap escape ++ ['"']))

/-- Texts between quotes one after the other, each behind its gap. -/
def quotedRow (row : List (String × String)) : String :=
  String.join (row.map fun (gap, text) => gap ++ quote text)

def Stroke.of (c : Char) : Stroke :=
  if special : c = '"' ∨ c = '\\' then .escaped c else .plain c (not_or.mp special)

theorem Stroke.written_of (c : Char) : (Stroke.of c).written = escape c := by
  unfold Stroke.of escape
  split <;> rfl

theorem Stroke.meaning_of (c : Char) : (Stroke.of c).meaning = [c] := by
  unfold Stroke.of
  split
  · rename_i special
    rw [meaning, if_pos special]
  · rfl

def Lexeme.quoting (s : String) : Lexeme := .quoted (s.toList.map Stroke.of)

theorem spelled_of (s : List Char) : spelled (s.map Stroke.of) = s.flatMap escape := by
  simp only [spelled, List.flatMap_map, Stroke.written_of]

theorem meant_of (s : List Char) : meant (s.map Stroke.of) = s := by
  simp only [meant, List.flatMap_map, Stroke.meaning_of, List.flatMap_singleton']

theorem Lexeme.text_quoting (s : String) : (Lexeme.quoting s).text = s := by
  rw [quoting, text, meant_of, String.ofList_toList]

theorem Lexeme.atom_quoting (s : String) : (Lexeme.quoting s).atom = .symbol s :=
  congrArg Atom.symbol (text_quoting s)

namespace Reads

variable {pieces : List Piece} {ending : Ending} {rest : List Char}

theorem behind_gap {gap : List Char} (white : isAllBlank gap = true) (reads : Reads pieces ending rest) :
    ∃ more, Reads more ending (gap ++ rest) ∧ lexemes more = lexemes pieces := by
  induction gap with
  | nil => exact ⟨pieces, reads, rfl⟩
  | cons c gap ih =>
    rw [isAllBlank, List.all_cons, Bool.and_eq_true] at white
    obtain ⟨more, later, same⟩ := ih white.2
    exact ⟨_, .blank c white.1 later, same⟩

theorem behind_quote (s : String) (reads : Reads pieces ending rest) :
    Reads (.lexeme (.quoting s) :: pieces) ending ((quote s).toList ++ rest) := by
  have written : (quote s).toList ++ rest = '"' :: (spelled (s.toList.map Stroke.of) ++ '"' :: rest) := by
    simp [quote, spelled_of]
  rw [written]
  exact .quoted _ reads

/-- A row of texts between quotes is read as these texts, with or without blanks in between. -/
theorem of_row {row : List (String × String)} {last : String}
    (white : ∀ part ∈ row, isAllBlank part.1.toList = true) (blank : isAllBlank last.toList = true) :
    ∃ pieces, Reads pieces .closed (quotedRow row ++ last).toList ∧
      lexemes pieces = row.map fun part => .quoting part.2 := by
  induction row with
  | nil =>
    obtain ⟨pieces, reads, none⟩ := behind_gap blank .closed
    exact ⟨pieces, by simpa [quotedRow] using reads, none⟩
  | cons part row ih =>
    obtain ⟨gap, text⟩ := part
    obtain ⟨pieces, reads, texts⟩ := ih fun part member => white part (List.mem_cons_of_mem _ member)
    obtain ⟨more, later, same⟩ :=
      behind_gap (white _ List.mem_cons_self) (reads.behind_quote text)
    refine ⟨more, ?_, ?_⟩
    · simpa [quotedRow] using later
    · rw [same, List.map_cons, ← texts]
      rfl

end Reads

theorem parse_row (selector : String) {first last : String} {row : List (String × String)}
    (white : ∀ gap ∈ first :: last :: row.map Prod.fst, isAllBlank gap.toList = true) :
    parse (quotedRow ((first, selector) :: row) ++ last) =
      .ok ⟨selector, row.map fun part => .symbol part.2, String.intercalate " " (row.map Prod.snd)⟩ := by
  obtain ⟨before, behind, between⟩ := List.forall_mem_cons.mp white |>.imp_right List.forall_mem_cons.mp
  have gaps : ∀ part ∈ (first, selector) :: row, isAllBlank part.1.toList = true := by
    intro part member
    rcases List.mem_cons.mp member with rfl | inside
    · exact before
    · exact between _ (List.mem_map_of_mem inside)
  obtain ⟨pieces, reads, texts⟩ := Reads.of_row gaps behind
  rw [parse_selector reads texts (fun number => number)]
  simp only [List.map_map, Function.comp_def, Lexeme.text_quoting, Lexeme.atom_quoting]

end Message

namespace Request

def message (r : Request) : Message := ⟨r.operation, [.symbol r.subject], r.subject⟩

theorem demand_message (r : Request) : r.message.demand? = some (.run r) := by
  cases r <;> rfl

end Request

namespace Host

theorem sendLine_parsed {h : Host} {i : Identity} {o : Owner} {line : String} {m : Message}
    (found : h.owner? i = some o) (parsed : Message.parse line = .ok m) :
    h.sendLine i line = { h.absorb i (o.handle h.surroundings m) with result := .ok true } := by
  simp only [sendLine, parsed, send_found found]

/-- Every selector and all texts arrive as they are when they are put between quotes, with any blanks or
none around them: they are the selector and the arguments of the message, all of them symbols, and its
source is the texts with single spaces between them. So an owner that is asked for work on a single text
does it on exactly this text. -/
theorem quoted_row_arrives (selector : String) {first last : String} {row : List (String × String)}
    (white : ∀ gap ∈ first :: last :: row.map Prod.fst, isAllBlank gap.toList = true) :
    let line := Message.quotedRow ((first, selector) :: row) ++ last
    Message.parse line =
        .ok ⟨selector, row.map fun part => .symbol part.2,
          String.intercalate " " (row.map Prod.snd)⟩ ∧
      ∀ (h : Host) (i : Identity) (o : Owner) (r : Request), h.owner? i = some o →
        selector = r.operation → row.map Prod.snd = [r.subject] →
        h.sendLine i line =
          { h.absorb i (Owner.after (o.note r.message.text) (o.meet h.surroundings (.run r))) with
            result := .ok true } := by
  intro line
  have parsed := Message.parse_row selector white
  refine ⟨parsed, ?_⟩
  rintro h i o r found rfl single
  obtain ⟨⟨gap, text⟩, rfl, rfl⟩ := List.map_eq_singleton_iff.mp single
  have message : Message.parse line = .ok r.message := by
    rw [parsed]
    rfl
  rw [sendLine_parsed found message, Owner.handle_understood r.demand_message]

theorem quoted_script_arrives :
    let script := "s = \"\\\\\""
    let line := "\"exec\"\"s = \\\"\\\\\\\\\\\"\" "
    let h := ((opening {} {} {} []).after (.spawn {} {})).1
    let i := Identity.ofNat 1
    let o : Owner := { settings := {}, scripts := .fresh i none }
    line = Message.quotedRow [("", "exec"), ("", script)] ++ " " ∧
      Message.parse line = .ok ⟨"exec", [.symbol script], script⟩ ∧
      h.sendLine i line =
        { h.absorb i (Owner.after (o.note ("exec " ++ script)) (o.execute script)) with
          result := .ok true } := by
  intro script line h i o
  have row : line = Message.quotedRow [("", "exec"), ("", script)] ++ " " := by decide
  have white : ∀ gap ∈ ["", " ", ""], isAllBlank gap.toList = true := by decide
  obtain ⟨parsed, delivers⟩ := @quoted_row_arrives "exec" "" " " [("", script)] white
  have sent := delivers h i o (.execute script) rfl rfl rfl
  rw [row]
  exact ⟨rfl, parsed, sent⟩

end Host

end Patchbay
