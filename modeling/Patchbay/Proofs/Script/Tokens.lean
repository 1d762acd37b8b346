import Patchbay.Proofs.Script.Bracket
import Mathlib.Tactic.NormNum

/-!
Names and numerals as tokens. A name is read up to the first character that continues none, and a
numeral up to the first that is no digit of it; what stands in front of either may be a line end.
-/
namespace Patchbay.Script

open Text

def Source.Holds (s : Source) : Nat → List Char → Prop
  | _, [] => True
  | i, c :: rest => s.chars[i]? = some (some c) ∧ s.Holds (i + 1) rest

namespace Source

variable {s : Source}

theorem code_of_char {i : Nat} {c : Char} (found : s.chars[i]? = some (some c)) : s.code i = c.toNat := by
  simp [code, found]

theorem toNat_ne_invalid (c : Char) : c.toNat ≠ invalid := fun same => by
  have valid : c.toNat < 0x110000 := by
    obtain below | ⟨-, below⟩ := c.valid
    · exact Nat.lt_trans below (by decide)
    · exact below
  exact absurd same (Nat.ne_of_lt valid)

theorem holds_append {a b : List Char} {i : Nat} :
    s.Holds i (a ++ b) ↔ s.Holds i a ∧ s.Holds (i + a.length) b := by
  induction a generalizing i with
  | nil => simp [Holds]
  | cons c a ih =>
    simp only [List.cons_append, Holds, ih, and_assoc, List.length_cons]
    rw [Nat.add_right_comm, Nat.add_assoc]

theorem holds_all {s : Source} (before : List Char) {all : List Char}
    (written : s.chars = ((before ++ all).map some).toArray) : s.Holds before.length all := by
  induction all generalizing before with
  | nil => trivial
  | cons c rest ih =>
    refine ⟨by simp [written], ?_⟩
    have := ih (before ++ [c]) (by simp [written])
    rwa [List.length_append] at this

theorem Holds.length_le {i : Nat} {l : List Char} (holds : s.Holds i l) (some : l ≠ []) :
    i + l.length ≤ s.size := by
  induction l generalizing i with
  | nil => exact absurd rfl some
  | cons c rest ih =>
    have here : i < s.size := (Array.getElem?_eq_some_iff.mp holds.1).1
    cases rest with
    | nil => exact here
    | cons d rest =>
      have := ih holds.2 (List.cons_ne_nil d rest)
      simp only [List.length_cons] at this ⊢
      omega

end Source

namespace Lexer

/-- A code point at which neither a blank nor a comment begins. -/
structure Solid (s : Source) (i : Nat) : Prop where
  line : endsLine (s.code i) = false
  blank : isScriptBlank (s.code i) = false
  slash : s.code i ≠ 0x2F
  angle : s.code i ≠ 0x3C
  dash : s.code i = 0x2D → s.code (i + 1) ≠ 0x2D

variable {s : Source}

theorem blanks_solid {c : Cursor} (solid : Solid s c.index) (fuel : Nat) (line : Bool) :
    blanks s (fuel + 1) c line = .ok (c, line) := by
  have return_ : s.code c.index ≠ 0x0D := fun same => by
    have := solid.line
    rw [same] at this
    cases this
  rw [blanks]
  by_cases dash : s.code c.index = 0x2D
  · simp [dash, solid.dash dash, isScriptBlank, endsLine]
  · simp [return_, solid.line, solid.blank, solid.slash, solid.angle, dash]

theorem blanks_line {c : Cursor} (line : s.code c.index = 0x0A) (fuel : Nat) (after : Bool) :
    blanks s (fuel + 1) c after = blanks s fuel (c.nextLine 1) true := by
  rw [blanks]
  simp [line, endsLine]

theorem token_solid {c : Cursor} (solid : Solid s c.index) (strict : Bool) :
    token s strict c = tokenAt s strict c (c.index = 0) := by
  unfold token
  rw [blanks_solid solid]
  rfl

theorem token_behind_line {c : Cursor} (line : s.code c.index = 0x0A) (solid : Solid s (c.index + 1))
    (strict : Bool) : token s strict c = tokenAt s strict (c.nextLine 1) true := by
  have long : 0 < s.size := by
    by_contra short
    have : s.chars[c.index]? = none := Array.getElem?_eq_none (by unfold Source.size at short; omega)
    simp [Source.code, this] at line
  obtain ⟨size, long⟩ := Nat.exists_eq_add_of_lt long
  unfold token
  rw [blanks_line line, show s.size = size + 1 by omega, blanks_solid (c := c.nextLine 1) solid]
  rfl

/-- A text that a script can write as a name. -/
def IsName (text : String) : Prop :=
  ∃ c rest, text.toList = c :: rest ∧ startsName c.toNat = true ∧ ∀ d ∈ rest, continuesName d.toNat = true

/-- Code points that begin no name: blanks, line ends, digits, and what begins another token. -/
def unnamed : List Nat :=
  [0x00, 0x22, 0x23, 0x27, 0x2D, 0x2E, 0x2F, 0x3C, 0x5C, 0x60] ++ List.range' 0x30 10 ++
    [0x0A, 0x0D, 0x2028, 0x2029] ++
    [0x09, 0x0B, 0x0C, 0x20, 0xA0, 0x1680, 0x202F, 0x205F, 0x3000, 0xFEFF] ++ List.range' 0x2000 11

theorem not_startsName : ∀ n ∈ unnamed, startsName n = false := by decide +kernel

theorem endsLine_unnamed {n : Nat} (ends : endsLine n = true) : n ∈ unnamed := by
  simp only [endsLine, Bool.or_eq_true, beq_iff_eq] at ends
  obtain ((rfl | rfl) | rfl) | rfl := ends <;> decide

theorem isScriptBlank_unnamed {n : Nat} (blank : isScriptBlank n = true) : n ∈ unnamed := by
  simp only [isScriptBlank, Bool.or_eq_true, Bool.and_eq_true, beq_iff_eq, decide_eq_true_eq] at blank
  simp only [unnamed, List.mem_append, List.mem_range'_1, List.mem_cons, List.not_mem_nil]
  omega

section

variable {i : Nat} (starts : startsName (s.code i) = true)
include starts

theorem code_ne_unnamed {n : Nat} (other : n ∈ unnamed) : s.code i ≠ n := fun same => by
  rw [same, not_startsName n other] at starts
  cases starts

theorem solid_name : Solid s i where
  line := Bool.eq_false_of_not_eq_true fun ends => code_ne_unnamed starts (endsLine_unnamed ends) rfl
  blank := Bool.eq_false_of_not_eq_true fun blank =>
    code_ne_unnamed starts (isScriptBlank_unnamed blank) rfl
  slash := code_ne_unnamed starts (by decide)
  angle := code_ne_unnamed starts (by decide)
  dash same := absurd same (code_ne_unnamed starts (by decide))

end

theorem IsName.ne_nul {text : String} (name : IsName text) {c : Char} (member : c ∈ text.toList) :
    c.toNat ≠ 0 := fun nul => by
  obtain ⟨d, rest, written, starts, goes⟩ := name
  rw [written] at member
  cases member with
  | head =>
    rw [nul, not_startsName 0 (by decide)] at starts
    cases starts
  | tail _ member =>
    have other : continuesName 0 = false := by decide +kernel
    have := goes c member
    rw [nul, other] at this
    cases this

theorem nameRest_holds {i fuel : Nat} {rest : List Char} (before : List Char) (holds : s.Holds i rest)
    (goes : ∀ d ∈ rest, continuesName d.toNat = true) (line : s.code (i + rest.length) = 0x0A)
    (room : rest.length ≤ fuel) :
    nameRest s fuel i before false = (rest.reverse ++ before, i + rest.length, false) := by
  induction rest generalizing i fuel before with
  | nil =>
    cases fuel with
    | zero => rfl
    | succ fuel =>
      have stops : continuesName 0x0A = false := by decide +kernel
      rw [List.length_nil, Nat.add_zero] at line
      simp [nameRest, line, stops]
  | cons d rest ih =>
    cases fuel with
    | zero => cases room
    | succ fuel =>
      obtain ⟨here, holds⟩ := holds
      have code := Source.code_of_char here
      have goes_on := goes d (.head _)
      have char := Source.toNat_ne_invalid d
      have escape : d.toNat ≠ 0x5C := fun same => by
        have : continuesName 0x5C = false := by decide +kernel
        rw [same, this] at goes_on
        cases goes_on
      rw [List.length_cons, Nat.add_comm rest.length, ← Nat.add_assoc] at line
      have next := ih (d :: before) holds (fun e member => goes e (.tail _ member)) line
        (Nat.le_of_succ_le_succ room)
      simp only [nameRest, code, escape, goes_on, char, if_false, ne_eq, not_false_eq_true, decide_true, decide_false, Bool.false_and, Bool.and_true, Bool.false_eq_true,
        if_true, Char.ofNat_toNat, next]
      simp [Nat.add_assoc, Nat.add_comm 1]

theorem name?_holds {i : Nat} {c : Char} {rest : List Char} (holds : s.Holds i (c :: rest))
    (starts : startsName c.toNat = true) (goes : ∀ d ∈ rest, continuesName d.toNat = true)
    (line : s.code (i + (c :: rest).length) = 0x0A) :
    name? s i = some (String.ofList (c :: rest), i + (c :: rest).length, false) := by
  have long := holds.length_le (List.cons_ne_nil c rest)
  obtain ⟨here, holds⟩ := holds
  have code := Source.code_of_char here
  have char := Source.toNat_ne_invalid c
  have escape : c.toNat ≠ 0x5C := code ▸ code_ne_unnamed (s := s) (i := i) (code ▸ starts) (by decide)
  rw [List.length_cons, Nat.add_comm rest.length, ← Nat.add_assoc] at line ⊢
  have room : rest.length ≤ s.size := by
    rw [List.length_cons] at long
    omega
  have read := nameRest_holds [c] holds goes line room
  simp [name?, code, escape, char, starts, read]

theorem tokenAt_name {c : Cursor} {text : String} {stop : Nat} (starts : startsName (s.code c.index) = true)
    (read : name? s c.index = some (text, stop, false)) (strict line : Bool) :
    tokenAt s strict c line = .ok ⟨.word text false, c.index, c.place, line, { c with index := stop }⟩ := by
  have other := fun n (member : n ∈ unnamed) => code_ne_unnamed starts member
  unfold tokenAt
  dsimp only
  split
  · exact absurd ‹_› (other 0 (by decide))
  split
  · rename_i quote
    simp [other 0x22 (by decide), other 0x27 (by decide)] at quote
  split
  · exact absurd ‹_› (other 0x60 (by decide))
  split
  · rename_i numeral
    change (decide (0x30 ≤ s.code c.index) && decide (s.code c.index ≤ 0x39) || _) = true at numeral
    simp only [other 0x2E (by decide), decide_false, Bool.false_and, Bool.or_false, Bool.and_eq_true,
      decide_eq_true_eq] at numeral
    exact absurd rfl (other (s.code c.index)
      (by simp only [unnamed, List.mem_append, List.mem_range'_1]; omega))
  rw [if_neg (other 0x23 (by decide)), read]

theorem token_name {c : Cursor} {text : String} (name : IsName text) (strict : Bool)
    (before : s.code c.index = 0x0A) (holds : s.Holds (c.index + 1) text.toList)
    (behind : s.code (c.index + 1 + text.toList.length) = 0x0A) :
    token s strict c = .ok ⟨.word text false, c.index + 1, ⟨c.line + 1, 0⟩, true,
      { c.nextLine 1 with index := c.index + 1 + text.toList.length }⟩ := by
  obtain ⟨d, rest, written, starts, goes⟩ := name
  rw [written] at holds behind ⊢
  have code := Source.code_of_char holds.1
  have read := name?_holds holds starts goes behind
  rw [← code] at starts
  rw [← written, String.ofList_toList] at read
  rw [token_behind_line before (solid_name starts),
    tokenAt_name (c := c.nextLine 1) starts read]
  simp [Cursor.place, Cursor.nextLine, written]

theorem token_bracket {c : Cursor} (strict : Bool) (before : s.code c.index = 0x0A)
    (bracket : s.chars[c.index + 1]? = some (some ')')) :
    token s strict c = .ok ⟨.mark ")", c.index + 1, ⟨c.line + 1, 0⟩, true,
      { c.nextLine 1 with index := c.index + 2 }⟩ := by
  have code : s.code (c.index + 1) = 0x29 := Source.code_of_char bracket
  have solid : Solid s (c.index + 1) := by
    constructor <;> simp [code, endsLine, isScriptBlank]
  have text : mark s (c.index + 1) = ")" := (mark_bracket (.inr rfl)).mpr bracket
  have plain : name? s (c.index + 1) = none := by
    simp [name?, code, Source.invalid, startsName, isAsciiLetter]
  rw [token_behind_line before solid]
  simp only [tokenAt, Cursor.nextLine, code, plain, text]
  simp [Cursor.place]
  rfl

end Lexer

end Patchbay.Script
