import Patchbay.Script.Lexer

/-!
Round brackets as tokens. No longer mark starts with one, and nothing else that is read is a mark, so a
bracket among the tokens stands in the source.
-/
namespace Patchbay.Script

theorem Source.head_slice {s : Source} {i n : Nat} (wide : 0 < n) :
    (s.slice i (i + n)).toList.head? = s.chars[i]?.map fun c => c.getD Text.Utf8.replacement := by
  obtain ⟨k, rfl⟩ := Nat.exists_eq_succ_of_ne_zero (Nat.ne_of_gt wide)
  unfold slice
  cases found : s.chars[i]? <;> simp_all [List.head?_take]

theorem Source.slice_one {s : Source} {i : Nat} {c : Char} (found : s.chars[i]? = some (some c)) :
    s.slice i (i + 1) = String.singleton c := by
  apply String.toList_injective
  unfold slice
  simp only [String.toList_ofList, String.toList_singleton]
  simp [found, List.take_one]

namespace Lexer

theorem mark_cases (s : Source) (i : Nat) :
    (mark s i ∈ longMarks ∧ s.slice i (i + (mark s i).length) = mark s i) ∨
      mark s i = s.slice i (i + 1) := by
  unfold mark
  dsimp only
  generalize found : longMarks.find? _ = result
  cases result with
  | none => exact .inr rfl
  | some m =>
    have fits := List.find?_some found
    simp only [Bool.and_eq_true, beq_iff_eq] at fits
    exact .inl ⟨List.mem_of_find?_eq_some found, fits.1⟩

theorem head_mark (s : Source) (i : Nat) :
    (mark s i).toList.head? = s.chars[i]?.map fun c => c.getD Text.Utf8.replacement := by
  obtain ⟨long, written⟩ | short := mark_cases s i
  · rw [← written]
    apply Source.head_slice
    have wide : ∀ m ∈ longMarks, 0 < m.length := by decide
    exact wide _ long
  · rw [short]
    exact Source.head_slice Nat.one_pos

theorem head_longMark : ∀ m ∈ longMarks, m.toList.head? ≠ some '(' ∧ m.toList.head? ≠ some ')' := by
  decide

theorem mark_bracket {s : Source} {i : Nat} {c : Char} (bracket : c = '(' ∨ c = ')') :
    mark s i = String.singleton c ↔ s.chars[i]? = some (some c) := by
  have head := head_mark s i
  constructor
  · intro same
    rw [same] at head
    cases found : s.chars[i]? with
    | none => simp [found] at head
    | some piece =>
      simp only [found, Option.map_some, String.toList_singleton, List.head?_cons,
        Option.some.injEq] at head
      cases piece with
      | some d => simp only [head, Option.getD_some]
      | none => rcases bracket with rfl | rfl <;> cases head
  · intro found
    rw [found] at head
    obtain ⟨long, -⟩ | short := mark_cases s i
    · have apart := head_longMark _ long
      rcases bracket with rfl | rfl <;> simp_all
    · rw [short]
      exact Source.slice_one found

theorem decimal_kind {s : Source} {i stop : Nat} {kind : TokenKind}
    (read : decimal s i = (kind, stop)) (text : String) : kind ≠ .mark text := by
  unfold decimal at read
  dsimp only at read
  split at read <;> cases read <;> simp

theorem based_kind {s : Source} {base i stop : Nat} {kind : TokenKind}
    (read : based s base i = some (kind, stop)) (text : String) : kind ≠ .mark text := by
  unfold based at read
  dsimp only at read
  split at read
  · cases read
  · split at read <;> cases read <;> simp

theorem number_kind {s : Source} {strict : Bool} {i stop : Nat} {kind : TokenKind}
    (ok : number s strict i = .ok (kind, stop)) (text : String) : kind ≠ .mark text := by
  unfold number at ok
  dsimp only at ok
  split at ok
  · cases ok
  · split at ok
    · cases ok
    · rename_i read
      split at ok
      · cases ok
      · cases ok
        repeat' split at read
        all_goals first
          | exact based_kind read text
          | exact decimal_kind (Option.some.inj read) text
          | (cases read <;> simp)

theorem template_kind {s : Source} {start c : Cursor} {afterLine : Bool} {t : Token}
    (ok : template s start afterLine c = .ok t) (text : String) : t.kind ≠ .mark text := by
  unfold template at ok
  split at ok <;> cases ok
  simp

theorem tokenAt_closing {s : Source} {strict afterLine : Bool} {c : Cursor} {t : Token}
    (ok : tokenAt s strict c afterLine = .ok t) (closing : t.kind = .mark ")") :
    s.chars[c.index]? = some (some ')') ∧ t.stop.index = c.index + 1 := by
  unfold tokenAt at ok
  dsimp only at ok
  repeat' split at ok
  -- Of the kinds of tokens, the template is read apart; a number might be any kind by its type.
  case isFalse.isFalse.isTrue => exact absurd closing (template_kind ok _)
  all_goals cases ok
  all_goals try cases closing
  case h_1.refl.refl =>
    rename_i read
    exact absurd rfl (number_kind read _)
  case h_2.isFalse.refl =>
    have text : mark s c.index = ")" := TokenKind.mark.inj closing
    rw [text]
    exact ⟨(mark_bracket (.inr rfl)).mp text, rfl⟩

theorem token_closing {s : Source} {strict : Bool} {c : Cursor} {t : Token}
    (ok : token s strict c = .ok t) (closing : t.kind = .mark ")") :
    ∃ i, s.chars[i]? = some (some ')') ∧ t.stop.index = i + 1 := by
  unfold token at ok
  cases passed : blanks s (s.size + 1) c (c.index = 0) with
  | error e => simp [passed, bind, Except.bind] at ok
  | ok a =>
    simp only [passed, bind, Except.bind] at ok
    exact ⟨_, tokenAt_closing ok closing⟩

theorem token_finish {s : Source} (strict : Bool) {c : Cursor} (past : s.size ≤ c.index) :
    ∃ t, token s strict c = .ok t ∧ t.kind = .finish := by
  have zero : s.code c.index = 0 := by
    have : s.chars[c.index]? = none := Array.getElem?_eq_none past
    simp [Source.code, this]
  have still : blanks s (s.size + 1) c (c.index = 0) = .ok (c, decide (c.index = 0)) := by
    unfold blanks
    simp [zero, Text.isScriptBlank]
  refine ⟨⟨.finish, c.index, c.place, decide (c.index = 0), c⟩, ?_, rfl⟩
  simp [token, still, tokenAt, zero, bind, Except.bind]

theorem token_opening {s : Source} (first : s.chars[0]? = some (some '(')) (strict : Bool) :
    token s strict {} = .ok ⟨.mark "(", 0, ⟨1, 0⟩, true, { index := 1 }⟩ := by
  have code : s.code 0 = 0x28 := by simp [Source.code, first]
  have still : blanks s (s.size + 1) {} true = .ok ({}, true) := by
    unfold blanks
    simp [code, Text.isScriptBlank, Text.endsLine]
  have text : mark s 0 = "(" := (mark_bracket (.inl rfl)).mpr first
  have plain : name? s 0 = none := by
    simp [name?, code, Source.invalid, Text.startsName, Text.isAsciiLetter]
  simp only [token, still, tokenAt, code, plain, text, bind, Except.bind, decide_true]
  rfl

end Lexer

end Patchbay.Script
