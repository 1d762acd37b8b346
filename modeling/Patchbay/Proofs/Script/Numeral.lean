import Patchbay.Proofs.Decimal.Written
import Patchbay.Proofs.Script.Enclosed

/-!
Plain decimals as scripts. Figures, maybe with a point among them, are one token, the double nearest to
what they spell, and a minus in front of them is a token of its own. No other way to write a number is
spoken of.
-/
namespace Patchbay.Script

open Binary Text Decimal

namespace Lexer

variable {s : Source} {i : Nat}

theorem toNat_of_isDigit {c : Char} (digit : Decimal.isDigit c = true) :
    0x30 ≤ c.toNat ∧ c.toNat ≤ 0x39 := by
  simpa [Decimal.isDigit, Char.le_def, UInt32.le_iff_toNat_le] using digit

theorem digitIn?_digit {c : Char} (digit : Decimal.isDigit c = true) :
    digitIn? 10 c.toNat = some (digitValue c) := by
  obtain ⟨low, high⟩ := toNat_of_isDigit digit
  have small : c.toNat - 0x30 < 10 := by omega
  have inside : (decide (0x30 ≤ c.toNat) && decide (c.toNat ≤ 0x39)) = true := by simp [low, high]
  have is : digit? c.toNat = some (c.toNat - 0x30) := if_pos inside
  rw [digitIn?, is, Option.filter_some, if_pos (decide_eq_true small)]
  rfl

theorem digits_holds {l : List Char} {fuel value count : Nat} (holds : s.Holds i l)
    (digit : ∀ c ∈ l, Decimal.isDigit c = true) (room : l.length ≤ fuel)
    (stops : digitIn? 10 (s.code (i + l.length)) = none ∧ s.code (i + l.length) ≠ 0x5F) :
    digits s 10 fuel i value count =
      (l.foldl (fun n c => 10 * n + digitValue c) value, count + l.length, i + l.length) := by
  induction l generalizing i fuel value count with
  | nil =>
    cases fuel with
    | zero => rfl
    | succ fuel =>
      rw [List.length_nil, Nat.add_zero] at stops
      simp [digits, stops.1, stops.2]
  | cons c l ih =>
    cases fuel with
    | zero => cases room
    | succ fuel =>
      obtain ⟨here, holds⟩ := holds
      have shift (n : Nat) : n + (c :: l).length = n + 1 + l.length := by
        rw [List.length_cons, Nat.add_right_comm, Nat.add_assoc]
      rw [shift] at stops ⊢
      rw [digits, Source.code_of_char here, digitIn?_digit (digit c (.head _))]
      dsimp only
      rw [ih holds (fun d member => digit d (.tail _ member)) (Nat.le_of_succ_le_succ room) stops, shift,
        List.foldl_cons, Nat.mul_comm value]

theorem digits_figures {l : List Char} (figures : Figures l) (holds : s.Holds i l) (value : Nat)
    (stops : digitIn? 10 (s.code (i + l.length)) = none ∧ s.code (i + l.length) ≠ 0x5F) :
    digits s 10 s.size i value 0 =
      (l.foldl (fun n c => 10 * n + digitValue c) value, l.length, i + l.length) := by
  have room := holds.length_le figures.1
  rw [digits_holds holds figures.2 (by omega) stops, Nat.zero_add]

theorem decimal_spelled {v : ℚ} {l : List Char} (spells : Spells v l) (holds : s.Holds i l)
    (line : s.code (i + l.length) = 0x0A) :
    ∃ r, Layout.wide.Rounds v r ∧ decimal s i = (.number ⟨r.toUInt64⟩, i + l.length) := by
  have nearest := Layout.rounds_nearestDecimal Layout.wide_modest
  have behind {n : Nat} (stop : n = 0x0A ∨ n = 0x2E) : digitIn? 10 n = none ∧ n ≠ 0x5F := by
    rcases stop with rfl | rfl <;> decide
  have none {stop : Nat} (line : s.code stop = 0x0A) : exponent s stop = (0, stop) := by
    simp [exponent, line]
  cases spells with
  | whole figures _ value =>
    refine ⟨Layout.wide.nearestDecimal (natOfDigits l) 0, ?_, ?_⟩
    · rw [← value, ← mul_one (natOfDigits l : ℚ), ← zpow_zero (10 : ℚ)]
      exact nearest _ 0
    · rw [decimal, digits_figures figures holds 0 (behind (.inl line))]
      simp [line, none line, Double.ofDecimal, Layout.signed, natOfDigits]
  | @pointed l part figures _ places value =>
    obtain ⟨front, point, back⟩ := Source.holds_append.mp holds
    have point : s.code (i + l.length) = 0x2E := Source.code_of_char point
    have length : i + (l ++ '.' :: part).length = i + l.length + 1 + part.length := by
      rw [List.length_append, List.length_cons]
      omega
    rw [length] at line ⊢
    refine ⟨Layout.wide.nearestDecimal (natOfDigits (l ++ part)) (-(part.length : Int)), ?_, ?_⟩
    · rw [← value]
      exact nearest _ _
    · rw [decimal, digits_figures figures front 0 (behind (.inr point))]
      simp [point, digits_figures places back _ (behind (.inl line)), none line, Double.ofDecimal,
        Layout.signed, natOfDigits]

theorem number_spelled {v : ℚ} {l : List Char} (spells : Spells v l) (holds : s.Holds i l)
    (line : s.code (i + l.length) = 0x0A) (strict : Bool) :
    ∃ r, Layout.wide.Rounds v r ∧ number s strict i = .ok (.number ⟨r.toUInt64⟩, i + l.length) := by
  obtain ⟨r, rounds, read⟩ := decimal_spelled spells holds line
  refine ⟨r, rounds, ?_⟩
  have ends : continuesName 0x0A = false := by decide +kernel
  -- A zero in front stands alone or before the point.
  have plain : s.code i = 0x30 → s.code (i + 1) = 0x0A ∨ s.code (i + 1) = 0x2E := by
    intro zero
    have first {l : List Char} {c : Char} (here : s.Holds i (c :: l)) : c = '0' := by
      have code := Source.code_of_char here.1
      exact Char.toNat_inj.mp (code.symm.trans zero)
    cases spells with
    | whole figures trim _ =>
      obtain ⟨c, rest, rfl⟩ := List.exists_cons_of_ne_nil figures.1
      obtain rfl := first holds
      rw [trim rfl] at line
      exact .inl line
    | pointed figures trim places _ =>
      obtain ⟨c, rest, rfl⟩ := List.exists_cons_of_ne_nil figures.1
      obtain rfl := first holds
      rw [trim rfl] at holds
      exact .inr (Source.code_of_char holds.2.1)
  by_cases zero : s.code i = 0x30
  · rcases plain zero with second | second
    all_goals
      simp only [number, zero, second, read]
      change (if (decide (s.code (i + l.length) ≠ Source.invalid) && continuesName (s.code (i + l.length))) = true
        then _ else Except.ok _) = _
      rw [line, ends]
      rfl
  · simp [number, zero, read, line, ends]

theorem spells_first {v : ℚ} {l : List Char} (spells : Spells v l) :
    ∃ c rest, l = c :: rest ∧ Decimal.isDigit c = true := by
  cases spells with
  | whole figures | pointed figures =>
    obtain ⟨c, rest, rfl⟩ := List.exists_cons_of_ne_nil figures.1
    exact ⟨c, _, rfl, figures.2 c (.head _)⟩

theorem solid_digit {c : Char} (here : s.chars[i]? = some (some c)) (digit : Decimal.isDigit c = true) :
    Solid s i := by
  obtain ⟨low, high⟩ := toNat_of_isDigit digit
  rw [← Source.code_of_char here] at low high
  have line : endsLine (s.code i) = false := by
    simp only [endsLine, Bool.or_eq_false_iff, beq_eq_false_iff_ne]
    omega
  have blank : isScriptBlank (s.code i) = false := by
    simp only [isScriptBlank, Bool.or_eq_false_iff, Bool.and_eq_false_iff, beq_eq_false_iff_ne,
      decide_eq_false_iff_not]
    omega
  exact ⟨line, blank, by omega, by omega, by omega⟩

theorem token_spelled {c : Cursor} {v : ℚ} {l : List Char} {i : Nat} (spells : Spells v l)
    (start : i = c.index ∨ i = c.index + 1 ∧ s.code c.index = 0x0A) (holds : s.Holds i l)
    (line : s.code (i + l.length) = 0x0A) (strict : Bool) :
    ∃ r t, Layout.wide.Rounds v r ∧ token s strict c = .ok t ∧ t.kind = .number ⟨r.toUInt64⟩ ∧
      t.stop.index = i + l.length := by
  obtain ⟨r, rounds, read⟩ := number_spelled spells holds line strict
  obtain ⟨d, rest, rfl, digit⟩ := spells_first spells
  have solid := solid_digit holds.1 digit
  obtain ⟨low, high⟩ := toNat_of_isDigit digit
  rw [← Source.code_of_char holds.1] at low high
  have here (c : Cursor) (after : Bool) (same : c.index = i) :
      ∃ t, tokenAt s strict c after = .ok t ∧ t.kind = .number ⟨r.toUInt64⟩ ∧
        t.stop.index = i + (d :: rest).length := by
    refine ⟨⟨.number ⟨r.toUInt64⟩, c.index, c.place, after, { c with index := i + (d :: rest).length }⟩, ?_,
      rfl, rfl⟩
    unfold tokenAt
    dsimp only
    rw [same, if_neg (by omega), if_neg (by simp; omega), if_neg (by omega)]
    split
    · rw [read]
    · rename_i other
      have inside : (decide (0x30 ≤ s.code i) && decide (s.code i ≤ 0x39)) = true := by simp [low, high]
      exact absurd (Bool.or_eq_true_iff.mpr (.inl inside)) other
  obtain rfl | ⟨rfl, before⟩ := start
  · obtain ⟨t, token, kind, stop⟩ := here c (c.index = 0) rfl
    exact ⟨r, t, rounds, (token_solid solid strict).trans token, kind, stop⟩
  · obtain ⟨t, token, kind, stop⟩ := here (c.nextLine 1) true rfl
    exact ⟨r, t, rounds, (token_behind_line before solid strict).trans token, kind, stop⟩

theorem mark_minus {d : Char} (here : s.chars[i]? = some (some '-'))
    (next : s.chars[i + 1]? = some (some d)) (digit : Decimal.isDigit d = true) : mark s i = "-" := by
  have head := head_mark s i
  rw [here, Option.map_some, Option.getD_some] at head
  obtain ⟨long, written⟩ | short := mark_cases s i
  · have few : ∀ m ∈ longMarks, m.toList.head? = some '-' →
        m.length = 2 ∧ (m.toList[1]? = some '-' ∨ m.toList[1]? = some '=') := by decide
    obtain ⟨two, second⟩ := few _ long head
    rw [two] at written
    rw [← written] at second
    simp only [Source.slice, String.toList_ofList] at second
    simp [next] at second
    rcases second with rfl | rfl <;> cases digit
  · rw [short]
    exact Source.slice_one here

theorem token_minus {c : Cursor} {d : Char} (strict : Bool) (before : s.code c.index = 0x0A)
    (minus : s.chars[c.index + 1]? = some (some '-')) (next : s.chars[c.index + 2]? = some (some d))
    (digit : Decimal.isDigit d = true) :
    token s strict c = .ok ⟨.mark "-", c.index + 1, ⟨c.line + 1, 0⟩, true,
      { c.nextLine 1 with index := c.index + 2 }⟩ := by
  have code : s.code (c.index + 1) = 0x2D := Source.code_of_char minus
  have second : 0x30 ≤ s.code (c.index + 1 + 1) := by
    rw [Source.code_of_char next]
    exact (toNat_of_isDigit digit).1
  have solid : Solid s (c.index + 1) := by
    constructor <;> simp [code, endsLine, isScriptBlank]
    omega
  have plain : name? s (c.index + 1) = none := by
    simp [name?, code, Source.invalid, startsName, isAsciiLetter]
  rw [token_behind_line before solid]
  simp only [tokenAt, Cursor.nextLine, code, plain, mark_minus minus next digit]
  simp [Cursor.place]
  rfl

end Lexer

namespace Parser

def signed (negative : Bool) (d : Double) : Expr := if negative then .unary .minus (.number d) else .number d

/-- What is spelled between brackets, maybe behind a minus, is the whole script. -/
theorem parse_spelled {src : Source} {v : ℚ} {negative : Bool} {l : List Char} (spells : Spells v l)
    (brackets : Brackets src (minus negative ++ l)) (depth : Nat) :
    ∃ r, Layout.wide.Rounds v r ∧
      parse (depth + 6) src true = .ok ⟨[.expr (signed negative ⟨r.toUInt64⟩)], [], true⟩ := by
  obtain ⟨text, behind⟩ := Source.holds_append.mp brackets.holds
  obtain ⟨behind, -⟩ := brackets.behind
  have bracket : src.chars[0]? = some (some '(') := by rw [brackets]; simp
  cases negative with
  | false =>
    change src.Holds 2 l at text
    change src.code (2 + l.length) = 0x0A at behind
    obtain ⟨r, t, rounds, opened, kind, stop⟩ :=
      Lexer.token_spelled (c := { index := 1 }) spells (.inr ⟨rfl, brackets.line⟩) text behind true
    obtain ⟨u, read, closing, ended⟩ := brackets.closed (c := t.stop) stop
    have plain : u.isMark "/" = false ∧ u.isMark "/=" = false := by simp [Token.isMark, closing]
    have enclosed : Enclosed src t u 1 := {
      bracket := bracket
      opened := opened
      plain := by simp [Token.isMark, kind]
      passed := fun fuel => skipBrackets_operand (kind ▸ .number _) read plain fuel _ _
      short := by rw [brackets.size]; omega
      closes := closing
      ended := ended }
    have begins : Begins t := begins_number kind
    have closes : Closes u := .bracket closing
    have operand := operand_number (g := grammar (depth + 1)) (s := Enclosed.entered src t) kind
      (advance_reads read)
    have signed := unary_closes closes .taken begins rfl
      (update_closes closes (access_closes closes begins operand))
    have plain : arrow? (Enclosed.entered src t) = .ok none (Enclosed.entered src t) :=
      arrow?_wordless (by simp [Enclosed.entered, Token.isMark, kind]) (by simp [Enclosed.entered, kind])
    exact ⟨r, rounds, enclosed.parse_between begins.toStarts plain signed rfl rfl ⟨rfl, rfl⟩ rfl⟩
  | true =>
    obtain ⟨sign, text⟩ := text
    have length : 2 + (minus true ++ l).length = 2 + 1 + l.length := by
      rw [List.length_append]
      exact (Nat.add_assoc 2 1 l.length).symm
    obtain ⟨d, rest, first, digit⟩ := Lexer.spells_first spells
    have next : src.chars[3]? = some (some d) := by
      rw [first] at text
      exact text.1
    have opened := Lexer.token_minus (c := { index := 1 }) true brackets.line sign next digit
    generalize isMinus : (⟨.mark "-", _, _, _, _⟩ : Token) = t at opened
    have kind : t.kind = .mark "-" := by rw [← isMinus]
    obtain ⟨r, w, rounds, number, operand, stop⟩ :=
      Lexer.token_spelled (c := t.stop) spells (.inl (by rw [← isMinus])) text (length ▸ behind) true
    obtain ⟨u, read, closing, ended⟩ := brackets.closed (c := w.stop) (stop.trans length.symm)
    have slash : w.isMark "/" = false ∧ w.isMark "/=" = false := by simp [Token.isMark, operand]
    have plain : u.isMark "/" = false ∧ u.isMark "/=" = false := by simp [Token.isMark, closing]
    have enclosed : Enclosed src t u 2 := {
      bracket := bracket
      opened := opened
      plain := by simp [Token.isMark, kind]
      passed := fun fuel =>
        (skipBrackets_operand (kind ▸ .minus) number slash (fuel + 1) _ _).trans
          (skipBrackets_operand (operand ▸ .number _) read plain fuel _ _)
      short := by rw [brackets.size]; omega
      closes := closing
      ended := ended }
    have begins : Begins w := begins_number operand
    have closes : Closes u := .bracket closing
    have passed : advance (Enclosed.entered src t) =
        .ok () { Enclosed.entered src t with token := w, lastEnd := t.stop.index } := advance_reads number
    have magnitude := operand_number (g := grammar depth)
      (s := { Enclosed.entered src t with token := w, lastEnd := t.stop.index }) operand (advance_reads read)
    have signed := unary_minus (g := grammar (depth + 1)) .taken kind passed
      (unary_closes closes .refused begins rfl (update_closes closes (access_closes closes begins magnitude)))
    have plain : arrow? (Enclosed.entered src t) = .ok none (Enclosed.entered src t) :=
      arrow?_wordless (by simp [Enclosed.entered, Token.isMark, kind]) (by simp [Enclosed.entered, kind])
    exact ⟨r, rounds, enclosed.parse_between (starts_minus kind) plain signed rfl rfl ⟨rfl, rfl⟩ rfl⟩

end Parser

end Patchbay.Script
