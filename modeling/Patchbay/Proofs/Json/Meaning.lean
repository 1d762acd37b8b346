import Patchbay.Proofs.Json.Skipping

/-!
What a value means to the readers of single values. A reader settles on the same for every layout of a
value, and what it settles on is given here as a function of the value: of the kind that the reader asks
for, its content, and of any other kind, nothing.
-/
namespace Patchbay.Json

open Text Text.Utf8

variable {α β : Type} {rest : Bytes}

/-- A reader that complains wherever it is used. -/
def Fails (p : Reader α) : Prop := ∀ c, ∃ failure, p c = .error failure

namespace Fails

theorem here (cause : Cause) : Fails (failHere cause : Reader α) := fun _ => ⟨_, rfl⟩

theorem next (cause : Cause) : Fails (failNext cause : Reader α) := fun _ => ⟨_, rfl⟩

theorem behind {p : Reader α} {f : α → Reader β} (fails : ∀ a, Fails (f a)) : Fails (p >>= f) := by
  intro c
  cases ran : p c with
  | error failure => exact ⟨failure, by simp only [Bind.bind, StateT.bind, ran, Except.bind]⟩
  | ok result => rw [bind_run ran]; exact fails _ _

theorem wrongType (expected : String) : Fails (Json.wrongType expected : Reader α) := by
  refine behind fun b => ?_
  split
  · exact behind fun _ => behind fun _ => here _
  · exact behind fun _ => behind fun _ => here _
  · exact behind fun _ => behind fun _ => here _
  · exact behind fun _ => behind fun _ => here _
  · exact behind fun _ => behind fun _ => here _
  · exact here _
  · exact here _
  · split
    · exact behind fun _ => here _
    · exact next _
  · exact next _

theorem settles {p : Reader α} (fails : Fails p) (s rest : Bytes) : Settles p s rest none :=
  fun n => fails ⟨n, s ++ rest⟩

end Fails

theorem Strung.refused {s : Bytes} (refused : Settles codePoint s rest none) :
    Strung (0x5C :: 0x75 :: s) rest none
  | 0, enough => by cases enough
  | _ + 1, _ => .look (.peek _ _) (.step (.advance _ _) (.step (.next _ _) refused.refused))

theorem takes_peekInString (b : UInt8) (rest : Bytes) : Takes peekInString [] (b :: rest) b :=
  .look (.peek b rest) (.pure b _)

def secondHalf (n : Nat) : Reader Nat := do
  if (← peekInString) != 0x5C then
    advance
    failHere .unfinishedPair
  else
    advance
    if (← peekInString) != 0x75 then
      advance
      failHere .unfinishedPair
    else
      advance
      let m ← hexEscape
      if m < 0xDC00 || 0xDFFF < m then failHere .loneSurrogate
      else return 0x10000 + (n - 0xD800) * 0x400 + (m - 0xDC00)

theorem settles_codePoint {q : Quad} (high : ¬(q.value < 0xD800 ∨ 0xDFFF < q.value))
    (low : ¬0xDBFF < q.value) {s : Bytes} {o : Option Nat} (second : Settles (secondHalf q.value) s rest o) :
    Settles codePoint (q.bytes ++ s) rest o := by
  refine .after (takes_quad q _) ?_
  rw [if_neg (by simp; omega), if_neg (by simp; omega)]
  exact second

theorem secondHalf_other (n : Nat) {b : UInt8} (other : b ≠ 0x5C) (s rest : Bytes) :
    Settles (secondHalf n) (b :: s) rest none := by
  refine .look (takes_peekInString b _) ?_
  rw [if_pos (by simpa using other)]
  exact (Fails.behind fun _ => .here _).settles _ _

theorem secondHalf_letter (n : Nat) {b : UInt8} (other : b ≠ 0x75) (s rest : Bytes) :
    Settles (secondHalf n) (0x5C :: b :: s) rest none := by
  refine .look (takes_peekInString _ _) (.step (.advance _ _) (.look (takes_peekInString b _) ?_))
  rw [if_pos (by simpa using other)]
  exact (Fails.behind fun _ => .here _).settles _ _

theorem secondHalf_unit (n : Nat) (r : Quad) (rest : Bytes) :
    Settles (secondHalf n) (0x5C :: 0x75 :: r.bytes) rest
      (if 0xDC00 ≤ r.value ∧ r.value ≤ 0xDFFF then
        some (0x10000 + (n - 0xD800) * 0x400 + (r.value - 0xDC00)) else none) := by
  refine .look (takes_peekInString _ _) (.step (.advance _ _) (.look (takes_peekInString _ _)
    (.step (.advance _ _) (.last (takes_quad r rest) ?_))))
  by_cases inside : 0xDC00 ≤ r.value ∧ r.value ≤ 0xDFFF
  · rw [if_pos inside, if_neg (by simp; omega)]
    exact Takes.pure _ rest
  · rw [if_neg inside, if_pos (by simp; omega)]
    exact (Fails.here _).settles _ _

theorem bytes_cons (piece : Piece) (l : Literal) :
    Literal.bytes (piece :: l) ++ [0x22] = piece.bytes ++ (l.bytes ++ [0x22]) := by
  rw [Literal.bytes, List.flatMap_cons, List.append_assoc]
  rfl

theorem map_encode (c : Char) (o : Option (List Char)) :
    (o.map (c :: ·)).map encode = (o.map encode).map (String.utf8EncodeChar c ++ ·) := by
  cases o <;> rfl

/-- A string is read as the text that its spelling stands for, and refused if there is none. -/
theorem strung_literal (l : Literal) (rest : Bytes) :
    Strung (l.bytes ++ [0x22]) rest (l.text?.map encode) := by
  fun_induction Literal.text? l with
  | case1 => exact .quote rest
  | case2 c stands l ih =>
    rw [bytes_cons, map_encode]
    exact ih.plains (Strung.plain_char stands.1 stands.2.1 stands.2.2)
  | case3 escape l ih =>
    obtain ⟨b, escapes, written⟩ := plainEscape?_letter escape
    rw [bytes_cons, map_encode, written]
    exact ih.letter escapes
  | case4 q l single ih =>
    rw [bytes_cons, map_encode]
    exact .point (Strung.codePoint_single (takes_quad q _) single) ih
  | case5 q l single low =>
    rw [bytes_cons]
    refine .refused (.after (takes_quad q _) ?_)
    rw [if_pos (by simp; omega)]
    exact (Fails.here _).settles _ _
  | case6 q single low r l inside ih =>
    have second := secondHalf_unit q.value r (Literal.bytes l ++ [0x22] ++ rest)
    rw [if_pos inside] at second
    have point := settles_codePoint single low second
    rw [bytes_cons, bytes_cons, map_encode]
    have strung := Strung.point point ih
    simpa only [Piece.bytes, List.append_assoc, List.cons_append] using strung
  | case7 q single low r l outside =>
    have second := secondHalf_unit q.value r (Literal.bytes l ++ [0x22] ++ rest)
    rw [if_neg outside] at second
    rw [bytes_cons, bytes_cons]
    exact .refused (settles_codePoint single low second.wider)
  | case8 q l single low other =>
    rw [bytes_cons]
    refine .refused (settles_codePoint single low ?_)
    cases l with
    | nil => exact secondHalf_other _ (by decide) _ _
    | cons piece l =>
      rw [bytes_cons]
      cases piece with
      | plain c stands =>
        have plain := Strung.plain_char stands.1 stands.2.1 stands.2.2
        obtain ⟨b, more, written⟩ := List.exists_cons_of_ne_nil (l := String.utf8EncodeChar c) (by simp)
        rw [Piece.bytes, written]
        rw [written] at plain
        exact secondHalf_other _ (plain b (.head _)).2.2 _ _
      | short escape => exact secondHalf_letter _ (by cases escape <;> decide) _ _
      | unit r => exact absurd rfl (other r l)

/-- What a reader settles on for a value, however it is laid out and whatever stands before and behind it. -/
def Means (p : Reader α) (value? : Tree → Option α) : Prop :=
  ∀ {t s g rest}, Lays t s → Blank g → Closed rest → Settles p (g ++ s) rest (value? t)

theorem takes_valueStart {g : Bytes} (blank : Blank g) {b : UInt8} (mark : isSpace b = false)
    (rest : Bytes) : Takes valueStart g (b :: rest) b :=
  .last (.blanks blank mark rest) (.pure b _)

theorem settles_wrongType (expected : String) {f : UInt8 → Reader α} {g : Bytes} (blank : Blank g)
    {b : UInt8} (mark : isSpace b = false) (other : f b = wrongType expected) (s rest : Bytes) :
    Settles (valueStart >>= f) (g ++ b :: s) rest none :=
  .after (takes_valueStart blank mark _) (other ▸ (Fails.wrongType expected).settles _ _)

theorem Numeral.begins (n : Numeral) : ∃ b s, n.bytes = b :: s ∧ isSpace b = false ∧
    ∀ c, c ≠ 0x2D → isDigitByte c = false → b ≠ c := by
  obtain ⟨b, s, bytes, begins⟩ := (Lays.number n).begins
  refine ⟨b, s, bytes, begins.mark.1, ?_⟩
  rintro c minus digit rfl
  obtain same | other := begins
  · exact minus same
  · rw [digit] at other
    cases other

def Tree.bool? : Tree → Option Bool
  | .bool value => some value
  | _ => none

theorem means_bool : Means bool Tree.bool? := by
  intro t s g rest lays blank closed
  cases lays with
  | yes => exact .after (takes_valueStart blank rfl _) (.step (.advance _ _) (.last (.word _ _) (.pure _ _)))
  | no => exact .after (takes_valueStart blank rfl _) (.step (.advance _ _) (.last (.word _ _) (.pure _ _)))
  | number n =>
    obtain ⟨b, s, bytes, mark, other⟩ := n.begins
    rw [bytes]
    refine settles_wrongType "a boolean" blank mark ?_ _ _
    split
    · exact absurd rfl (other 0x74 (by decide) rfl)
    · exact absurd rfl (other 0x66 (by decide) rfl)
    · rfl
  | _ => exact settles_wrongType _ blank rfl rfl _ _

def Tree.text? : Tree → Option String
  | .string spelled => spelled.text?.map String.ofList
  | _ => none

theorem means_text (expected : String) : Means (text expected) Tree.text? := by
  intro t s g rest lays blank closed
  cases lays with
  | string l =>
    have read := settles_string (strung_literal l rest)
    exact .after (takes_valueStart blank rfl _) (.step (.advance _ _) read)
  | number n =>
    obtain ⟨b, s, bytes, mark, other⟩ := n.begins
    have quote : (b == 0x22) = false := by simpa using other 0x22 (by decide) rfl
    rw [bytes]
    exact settles_wrongType _ blank mark (if_neg (by simp [quote])) _ _
  | _ => exact settles_wrongType _ blank rfl rfl _ _

def Tree.optional? (value? : Tree → Option α) : Tree → Option (Option α)
  | .null => some none
  | t => (value? t).map some

theorem means_optional {p : Reader α} {value? : Tree → Option α} (means : Means p value?) :
    Means (optional p) (Tree.optional? value?) := by
  intro t s g rest lays blank closed
  have value := (means lays blank_nil closed).map some
  cases lays with
  | null => exact .after (.blanks blank rfl _) (.step (.advance _ _) (.last (.word _ _) (.pure _ _)))
  | number n =>
    obtain ⟨b, s, bytes, mark, other⟩ := n.begins
    rw [bytes] at value ⊢
    refine .after (.blanks blank mark _) ?_
    split
    · rename_i same
      exact absurd (Option.some.inj same) (other 0x6E (by decide) rfl)
    · exact value
  | _ => exact .after (.blanks blank rfl _) value

def Numeral.size? (n : Numeral) : Option UInt64 :=
  if n.negative = false ∧ n.decimals.isNone ∧ n.exponent.isNone ∧ n.whole < UInt64.size then
    some n.whole.toUInt64
  else none

theorem number_unsigned (n : Numeral) {m k : Nat} {c : Cursor}
    (ok : number n.negative ⟨m, ofString (toString n.whole) ++ (n.tail ++ rest)⟩ = .ok (.unsigned k, c))
    (closed : Closed rest) :
    n.negative = false ∧ n.decimals.isNone ∧ n.exponent.isNone ∧ n.whole < UInt64.size := by
  obtain ⟨b, ds, bytes, digits, lead, value⟩ := written_digits n.whole
  rw [bytes] at ok
  by_cases fits : digitsValue 0 (b :: ds) ≤ wordLimit
  · rw [number_fits digits lead _ (stops_tail n closed) fits] at ok
    obtain ⟨sign, _, point, mark⟩ := numberTail_unsigned ok
    rw [value] at fits
    rw [Numeral.tail] at point mark
    cases decimals : n.decimals with
    | some d =>
      rw [decimals] at point
      exact absurd rfl point
    | none =>
      cases exponent : n.exponent with
      | none => exact ⟨sign, rfl, rfl, Nat.lt_succ_of_le fits⟩
      | some e =>
        rw [decimals, exponent] at mark
        obtain ⟨capital, _, _⟩ := e
        cases capital <;> cases mark
  · obtain ⟨v, more, c', full⟩ := number_over digits lead n.negative (n.tail ++ rest) (Nat.not_le.mp fits) m
    rw [full] at ok
    cases (numberTail_unsigned ok).2.1

def Tree.size? : Tree → Option UInt64
  | .number spelled => spelled.size?
  | _ => none

def wordOf : Number → Reader UInt64
  | .unsigned value => return value.toUInt64
  | .signed value => failHere (.wrongValue (.signed value) "usize")
  | .real value => failHere (.wrongType (.real value) "usize")

theorem settles_wordOf (n : Numeral) (closed : Closed rest) :
    Settles (number n.negative >>= wordOf) (ofString (toString n.whole) ++ n.tail) rest n.size? := by
  by_cases plain : n.negative = false ∧ n.decimals.isNone ∧ n.exponent.isNone ∧ n.whole < UInt64.size
  · rw [Numeral.size?, if_pos plain]
    obtain ⟨sign, point, mark, small⟩ := plain
    obtain ⟨b, ds, bytes, digits, lead, value⟩ := written_digits n.whole
    rw [Option.isNone_iff_eq_none] at point mark
    have fits : digitsValue 0 (b :: ds) ≤ wordLimit := value ▸ Nat.le_of_lt_succ small
    have tail : n.tail = [] := by rw [Numeral.tail, point, mark]; rfl
    have takes := number_takes digits lead closed fits
    rw [value] at takes
    rw [sign, tail, List.append_nil, bytes]
    exact Takes.last takes (.pure _ rest)
  · rw [Numeral.size?, if_neg plain]
    intro m
    rw [List.append_assoc]
    cases ran : number n.negative ⟨m, ofString (toString n.whole) ++ (n.tail ++ rest)⟩ with
    | error failure => exact ⟨failure, by simp only [Bind.bind, StateT.bind, ran, Except.bind]⟩
    | ok result =>
      obtain ⟨number, c⟩ := result
      rw [bind_run ran]
      cases number with
      | unsigned k => exact absurd (number_unsigned n ran closed) plain
      | signed value => exact ⟨_, rfl⟩
      | real value => exact ⟨_, rfl⟩

theorem means_wordSize : Means wordSize Tree.size? := by
  intro t s g rest lays blank closed
  cases lays with
  | number n =>
    have number := settles_wordOf n closed
    obtain ⟨b, ds, bytes, digits, _⟩ := written_digits n.whole
    have digit := digits b (.head _)
    have minus : (b == 0x2D) = false := digit_beq digit rfl
    rw [bytes] at number
    rw [Numeral.bytes, bytes]
    cases sign : n.negative with
    | true =>
      rw [sign] at number
      exact .after (takes_valueStart blank rfl _) (.step (.advance _ _) number)
    | false =>
      rw [sign] at number
      refine .after (takes_valueStart blank (isSpace_digit digit) _) ?_
      simp only [minus, digit, Bool.false_eq_true, if_false, if_true]
      exact number
  | _ => exact .after (takes_valueStart blank rfl _) ((Fails.wrongType _).settles _ _).refused

theorem takes_lastItem {g : Bytes} (blank : Blank g) (first : Bool) (rest : Bytes) :
    Takes (moreItems first) g (0x5D :: rest) false := .last (.blanks blank rfl _) (.pure _ _)

theorem takes_joint {first : Bool} {j s : Bytes} {t : Tree} (joint : Joint first j) (lays : Lays t s)
    (rest : Bytes) : Takes (moreItems first) j (s ++ rest) true := by
  obtain ⟨b, s, rfl, begins⟩ := lays.begins
  obtain ⟨mark, ends, _⟩ := begins.mark
  cases joint with
  | first blank =>
    refine .last (.blanks blank mark _) ?_
    split
    · contradiction
    · rename_i same
      exact absurd (Option.some.inj same) ends
    · exact .pure _ _
  | next before behind =>
    refine .bind (.blanks before rfl _) (.step (.advance _ _) (.last (.blanks behind mark _) ?_))
    split
    · rename_i same
      exact absurd (Option.some.inj same) ends
    · exact .pure _ _
    · contradiction

theorem LaysItems.length_le {first : Bool} {items : List Tree} {s : Bytes} (lays : LaysItems first items s) :
    items.length ≤ s.length := by
  induction items generalizing first s with
  | nil => exact Nat.zero_le _
  | cons t items ih =>
    cases lays with
    | cons joint lays others =>
      obtain ⟨b, s, rfl, _⟩ := lays.begins
      have := ih others
      simp only [List.length_append, List.length_cons]
      omega

theorem LaysMembers.length_le {first : Bool} {members : List (String × Tree)} {s : Bytes}
    (lays : LaysMembers first members s) : members.length ≤ s.length := by
  induction members generalizing first s with
  | nil => exact Nat.zero_le _
  | cons member members ih =>
    cases lays with
    | cons joint spells before behind lays others =>
      have := ih others
      simp only [List.length_append, List.length_cons]
      omega

def Tree.list? (item? : Tree → Option α) : Tree → Option (List α)
  | .list items => items.mapM item?
  | _ => none

theorem settles_items {item : Reader α} {item? : Tree → Option α} (means : Means item item?)
    {all : List Tree} {g : Bytes} (blank : Blank g) : ∀ {first s fuel}, LaysItems first all s →
      all.length < fuel → Settles (items item first fuel) (s ++ g) (0x5D :: rest) (all.mapM item?) := by
  induction all with
  | nil =>
    rintro first s (_ | fuel) ⟨⟩ enough
    · cases enough
    · exact .last (takes_lastItem blank first rest) (Takes.pure _ _)
  | cons t all ih =>
    rintro first s (_ | fuel) lays enough
    · cases enough
    · cases lays with
      | @cons _ _ _ j s others joint lays more =>
        have closed : Closed ((others ++ g) ++ 0x5D :: rest) := by
          simpa using closed_items more blank rest
        have start : Takes (moreItems first) j (s ++ (others ++ g) ++ 0x5D :: rest) true := by
          rw [List.append_assoc]
          exact takes_joint joint lays _
        have head : Settles item s ((others ++ g) ++ 0x5D :: rest) (item? t) := means lays blank_nil closed
        have left := ih more (Nat.lt_of_succ_lt_succ enough)
        have order : j ++ (s ++ others) ++ g = j ++ (s ++ (others ++ g)) := by simp only [List.append_assoc]
        have read : (t :: all).mapM item? = (item? t).bind fun a => (all.mapM item?).map (a :: ·) := by
          simp only [List.mapM_cons, Option.bind_eq_bind, Option.pure_def, Option.map_eq_bind]
          rfl
        rw [order, read]
        exact .after start (.bind head fun a _ => left.map (a :: ·))

theorem means_list {item : Reader α} {item? : Tree → Option α} (means : Means item item?) :
    Means (list item) (Tree.list? item?) := by
  intro t s g rest lays blank closed
  cases lays with
  | @list all s h lays behind =>
    have enough := lays.length_le
    refine .after (takes_valueStart blank rfl _) (.step (.advance _ _) (.get fun n => ?_))
    rw [← List.append_assoc]
    refine .close (settles_items means behind lays ?_) fun a => ?_
    · simp only [List.length_append]
      omega
    · exact .last (.look (.skipSpace rfl _) (.advance _ _)) (.pure _ _)
  | number n =>
    obtain ⟨b, s, bytes, mark, other⟩ := n.begins
    have bracket : (b == 0x5B) = false := by simpa using other 0x5B (by decide) rfl
    rw [bytes]
    exact settles_wrongType _ blank mark (if_neg (by simp [bracket])) _ _
  | _ => exact settles_wrongType _ blank rfl rfl _ _

end Patchbay.Json
