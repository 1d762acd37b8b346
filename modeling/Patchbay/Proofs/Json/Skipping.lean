import Patchbay.Proofs.Json.Reading

/-!
Values that nobody asks for. Whatever is laid out is passed over as far as it reaches, also a string that
stands for no text and a number that no type could hold. A list uses up fuel with every item and every
level, so the length of the text is enough for it.
-/
namespace Patchbay.Json

open Text Text.Utf8

variable {rest : Bytes}

theorem hexValue?_byte (h : Hex) : hexValue? h.byte = some h.value.val := by
  have all : ∀ v : Fin 16, ∀ capital, hexValue? (Hex.byte ⟨v, capital⟩) = some v.val := by decide +kernel
  exact all h.value h.capital

theorem takes_quad (q : Quad) (rest : Bytes) : Takes hexEscape q.bytes rest q.value :=
  Strung.hexEscape (hexValue?_byte _) (hexValue?_byte _) (hexValue?_byte _) (hexValue?_byte _) rest

theorem plainEscape?_letter (escape : Short) :
    ∃ b, plainEscape? escape.letter = some b ∧ String.utf8EncodeChar escape.value = [b] := by
  cases escape <;> exact ⟨_, rfl, by decide +kernel⟩

/-- The bytes of a string up to its closing quote are passed over, if there is enough fuel. -/
def Skipped (s rest : Bytes) : Prop := ∀ fuel, s.length < fuel → Takes (skipString fuel) s rest ()

namespace Skipped

variable {s : Bytes}

theorem quote (rest : Bytes) : Skipped [0x22] rest
  | 0 => nofun
  | _ + 1 => fun _ => .look (.peek _ _) (.advance _ _)

theorem plain {b : UInt8} (stands : Strung.Plain b) (others : Skipped s rest) : Skipped (b :: s) rest
  | 0, enough => by cases enough
  | fuel + 1, enough => by
    obtain ⟨high, quote, slash⟩ := stands
    refine .look (.peek _ _) ?_
    split
    · contradiction
    · simp_all
    · simp_all
    · rename_i same
      cases same
      rw [if_neg (UInt8.not_lt.mpr high)]
      exact .step (.advance _ _) (others fuel (Nat.lt_of_succ_lt_succ enough))

theorem plains {t : Bytes} (stand : ∀ b ∈ t, Strung.Plain b) (others : Skipped s rest) :
    Skipped (t ++ s) rest := by
  induction t with
  | nil => exact others
  | cons b t ih => exact plain (stand b (.head _)) (ih fun x member => stand x (.tail _ member))

theorem short (escape : Short) (others : Skipped s rest) : Skipped (0x5C :: escape.letter :: s) rest
  | 0, enough => by cases enough
  | fuel + 1, enough => by
    have left := others fuel (by simp only [List.length_cons] at enough; omega)
    refine .look (.peek _ _) (.step (.advance _ _) (.step (.next _ _) ?_))
    cases escape <;> exact left

theorem unit (quad : Quad) (others : Skipped s rest) :
    Skipped (0x5C :: 0x75 :: (quad.bytes ++ s)) rest
  | 0, enough => by cases enough
  | fuel + 1, enough => by
    have left := others fuel (by simp only [List.length_cons, List.length_append] at enough; omega)
    refine .look (.peek _ _) (.step (.advance _ _) (.step (.next _ _) ?_))
    exact .bind (takes_quad quad _) left

theorem literal (l : Literal) (rest : Bytes) : Skipped (l.bytes ++ [0x22]) rest := by
  induction l with
  | nil => exact quote rest
  | cons piece l ih =>
    rw [Literal.bytes, List.flatMap_cons, List.append_assoc]
    cases piece with
    | plain c stands => exact plains (Strung.plain_char stands.1 stands.2.1 stands.2.2) ih
    | short escape => exact short escape ih
    | unit quad => exact unit quad ih

end Skipped

theorem isDigitByte_byte (n : Fin 10) : isDigitByte (Digits.byte n) = true := by
  revert n
  decide

theorem takes_digits {ds : Bytes} (digits : ∀ b ∈ ds, isDigitByte b = true) (stops : Stops rest) :
    Takes Json.digits ds rest ds := by
  have left : rest.takeWhile isDigitByte = [] := by
    cases rest with
    | nil => rfl
    | cons b rest => simp [stops b rfl]
  have taken : (ds ++ rest).takeWhile isDigitByte = ds := by
    rw [List.takeWhile_append_of_pos digits, left, List.append_nil]
  intro n
  have run : Json.digits ⟨n, ds ++ rest⟩ = .ok ((ds ++ rest).takeWhile isDigitByte,
      ⟨n + ((ds ++ rest).takeWhile isDigitByte).length,
        (ds ++ rest).drop ((ds ++ rest).takeWhile isDigitByte).length⟩) := rfl
  rw [run, taken, List.drop_left]

theorem Digits.isDigit (d : Digits) : ∀ b ∈ d.bytes, isDigitByte b = true := by
  intro b member
  obtain ⟨n, _, rfl⟩ := List.mem_map.mp (show b ∈ (d.first :: d.others).map byte from member)
  exact isDigitByte_byte n

theorem takes_peek (s : Bytes) : Takes peek [] s s.head? := fun _ => rfl

def skipPower : Reader Unit := do
  match ← next with
  | some b => if isDigitByte b then let _ ← digits else failHere .invalidNumber
  | none => failHere .invalidNumber

def skipExponent : Reader Unit := do
  if isExponentMark (← peek) then
    advance
    match ← peek with
    | some 0x2B | some 0x2D => advance
    | _ => pure ()
    skipPower

theorem takes_skipPower (d : Digits) (stops : Stops rest) : Takes skipPower d.bytes rest () := by
  refine .step (.next _ _) ?_
  simp only [isDigitByte_byte, if_true]
  exact .last (takes_digits (fun b member => d.isDigit b (.tail _ member)) stops) (.pure _ _)

theorem takes_skipExponent (e : Option Exponent) (closed : Closed rest) :
    Takes skipExponent (e.elim [] Exponent.bytes) rest () := by
  match e with
  | none =>
    refine .look (takes_peek rest) ?_
    cases closed with
    | nil => exact .pure _ _
    | byte digit point mark rest =>
      simp only [List.head?_cons, mark]
      exact .pure _ _
  | some ⟨capital, minus, digits⟩ =>
    have power := takes_skipPower digits closed.stops
    have signed : Takes (do
        match ← peek with
        | some 0x2B | some 0x2D => advance
        | _ => pure ()
        skipPower)
        (minus.elim [] (fun minus => [if minus then 0x2D else 0x2B]) ++ digits.bytes) rest () := by
      match minus with
      | none =>
        have digit := isDigitByte_byte digits.first
        refine .look (.peek _ _) ?_
        split
        · rename_i same
          simp [Option.some.inj same, isDigitByte] at digit
        · rename_i same
          simp [Option.some.inj same, isDigitByte] at digit
        · exact power
      | some true => exact .look (.peek _ _) (.step (.advance _ _) power)
      | some false => exact .look (.peek _ _) (.step (.advance _ _) power)
    cases capital <;> exact .look (.peek _ _) (.step (.advance _ _) signed)

theorem head_exponent (e : Option Exponent) (closed : Closed rest) :
    Stops (e.elim [] Exponent.bytes ++ rest) ∧ (e.elim [] Exponent.bytes ++ rest).head? ≠ some 0x2E := by
  match e with
  | none =>
    refine ⟨closed.stops, ?_⟩
    cases closed with
    | nil => nofun
    | byte digit point mark rest => simpa using point
  | some ⟨capital, minus, digits⟩ =>
    constructor
    · rintro _ ⟨⟩
      cases capital <;> rfl
    · cases capital <;> rintro ⟨⟩

theorem stops_tail (n : Numeral) (closed : Closed rest) : Stops (n.tail ++ rest) := by
  rw [Numeral.tail]
  cases n.decimals with
  | none => exact (head_exponent n.exponent closed).1
  | some d =>
    rintro _ ⟨⟩
    rfl

theorem takes_skipFraction (n : Numeral) (closed : Closed rest) : Takes skipFraction n.tail rest () := by
  obtain ⟨stops, point⟩ := head_exponent n.exponent closed
  have ending := takes_skipExponent n.exponent closed
  unfold Numeral.tail
  cases n.decimals with
  | none =>
    have other : ((n.exponent.elim [] Exponent.bytes ++ rest).head? == some 0x2E) = false := by
      simpa using point
    refine .look (takes_peek _) ?_
    simp only [Option.elim_none, List.nil_append, other]
    exact ending
  | some d =>
    exact .look (.peek _ _) (.step (.advance _ _) (.bind (takes_digits d.isDigit stops) ending))

theorem takes_skipNumber (n : Numeral) (closed : Closed rest) :
    Takes skipNumber (ofString (toString n.whole) ++ n.tail) rest () := by
  obtain ⟨b, ds, bytes, digits, lead, _⟩ := written_digits n.whole
  have stops := stops_tail n closed
  have fraction := takes_skipFraction n closed
  rw [bytes]
  refine .step (.next _ _) ?_
  simp only [digits b (.head _), Bool.not_true, Bool.false_eq_true, if_false]
  by_cases zero : b = 0x30
  · obtain rfl := lead zero
    subst zero
    refine .look (.pure _ _) (.look (takes_peek (n.tail ++ rest)) ?_)
    have none : (n.tail ++ rest).head?.any isDigitByte = false := by
      cases head : (n.tail ++ rest).head? with
      | none => rfl
      | some b => exact stops b head
    simp only [none, Bool.and_false]
    exact fraction
  · simp only [zero, if_false]
    refine .bind (takes_digits (fun x member => digits x (.tail _ member)) stops) (.look (takes_peek _) ?_)
    exact fraction

def Tree.Begins : Tree → UInt8 → Prop
  | .null, b => b = 0x6E
  | .bool value, b => b = if value then 0x74 else 0x66
  | .number _, b => b = 0x2D ∨ isDigitByte b = true
  | .string _, b => b = 0x22
  | .list _, b => b = 0x5B
  | .object _, b => b = 0x7B

theorem Lays.begins {t : Tree} {s : Bytes} (lays : Lays t s) : ∃ b s', s = b :: s' ∧ t.Begins b := by
  cases lays with
  | null => exact ⟨_, _, rfl, rfl⟩
  | yes => exact ⟨_, _, rfl, rfl⟩
  | no => exact ⟨_, _, rfl, rfl⟩
  | number n =>
    obtain ⟨b, ds, bytes, digits, _⟩ := written_digits n.whole
    rw [Numeral.bytes, bytes]
    cases n.negative with
    | true => exact ⟨_, _, rfl, .inl rfl⟩
    | false => exact ⟨_, _, rfl, .inr (digits b (.head _))⟩
  | string l => exact ⟨_, _, rfl, rfl⟩
  | list lays blank => exact ⟨_, _, rfl, rfl⟩
  | object lays blank => exact ⟨_, _, rfl, rfl⟩

theorem Tree.Begins.mark {t : Tree} {b : UInt8} (begins : t.Begins b) :
    isSpace b = false ∧ b ≠ 0x5D ∧ b ≠ 0x2C := by
  cases t with
  | bool value => cases value <;> cases begins <;> decide
  | number n =>
    obtain rfl | digit := begins
    · decide
    · exact ⟨isSpace_digit digit, beq_eq_false_iff_ne.mp (digit_beq digit rfl),
        beq_eq_false_iff_ne.mp (digit_beq digit rfl)⟩
  | _ => cases begins; decide

theorem closed_blank {g : Bytes} (blank : Blank g) (closed : Closed rest) : Closed (g ++ rest) := by
  cases g with
  | nil => exact closed
  | cons c g => obtain rfl | rfl | rfl | rfl := blank c (.head _) <;> exact .byte rfl (by decide) rfl _

theorem closed_joint {j : Bytes} (joint : Joint false j) (rest : Bytes) : Closed (j ++ rest) := by
  cases joint with
  | next before behind =>
    rw [List.append_assoc]
    exact closed_blank before (.byte rfl (by decide) rfl _)

theorem closed_items {items : List Tree} {s g : Bytes} (lays : LaysItems false items s) (blank : Blank g)
    (rest : Bytes) : Closed (s ++ (g ++ [0x5D]) ++ rest) := by
  rw [List.append_assoc, List.append_assoc]
  cases lays with
  | nil =>
    rw [List.nil_append]
    exact closed_blank blank (.byte rfl (by decide) rfl _)
  | cons joint lays others =>
    rw [List.append_assoc]
    exact closed_joint joint _

theorem closed_members {members : List (String × Tree)} {s g : Bytes} (lays : LaysMembers false members s)
    (blank : Blank g) (rest : Bytes) : Closed (s ++ (g ++ [0x7D]) ++ rest) := by
  rw [List.append_assoc, List.append_assoc]
  cases lays with
  | nil =>
    rw [List.nil_append]
    exact closed_blank blank (.byte rfl (by decide) rfl _)
  | cons joint spells before behind lays others =>
    rw [List.append_assoc]
    exact closed_joint joint _

theorem LaysItems.behind {t : Tree} {items : List Tree} {s : Bytes} (lays : LaysItems false (t :: items) s) :
    ∃ g s', s = g ++ 0x2C :: s' ∧ Blank g ∧ LaysItems true (t :: items) s' := by
  cases lays with
  | cons joint lays rest =>
    cases joint with
    | next before behind =>
      exact ⟨_, _, by rw [List.append_assoc]; rfl, before, .cons (.first behind) lays rest⟩

theorem LaysMembers.behind {member : String × Tree} {members : List (String × Tree)} {s : Bytes}
    (lays : LaysMembers false (member :: members) s) :
    ∃ g s', s = g ++ 0x2C :: s' ∧ Blank g ∧ LaysMembers true (member :: members) s' := by
  cases lays with
  | cons joint spells before behind lays rest =>
    cases joint with
    | next ahead within =>
      exact ⟨_, _, by rw [List.append_assoc]; rfl, ahead,
        .cons (.first within) spells before behind lays rest⟩

theorem LaysMembers.ahead {member : String × Tree} {members : List (String × Tree)} {s : Bytes}
    (lays : LaysMembers true (member :: members) s) :
    ∃ g s', s = g ++ 0x22 :: s' ∧ Blank g ∧ LaysMembers true (member :: members) (0x22 :: s') := by
  cases lays with
  | cons joint spells before behind lays rest =>
    cases joint with
    | first within =>
      obtain ⟨l, text, rfl⟩ := spells
      exact ⟨_, _, rfl, within, .cons (.first blank_nil) ⟨l, text, rfl⟩ before behind lays rest⟩

/-- With this much fuel everything that is shorter is passed over. -/
structure Skips (fuel : Nat) : Prop where
  value : ∀ {t s g rest}, Lays t s → s.length < fuel → Blank g → Closed rest →
    Takes (skipValue fuel) (g ++ s) rest ()
  items : ∀ {items s g rest}, LaysItems false items s → s.length < fuel → Blank g →
    Takes (skipItems fuel) (s ++ (g ++ [0x5D])) rest ()
  fields : ∀ {member members s g rest}, LaysMembers true (member :: members) s → s.length < fuel → Blank g →
    Takes (skipFields fuel) (s ++ (g ++ [0x7D])) rest ()

namespace Skips

variable {fuel : Nat} {s g : Bytes}

theorem value_succ (skips : Skips fuel) {t : Tree} (lays : Lays t s) (enough : s.length < fuel + 1)
    (blank : Blank g) (closed : Closed rest) : Takes (skipValue (fuel + 1)) (g ++ s) rest () := by
  cases lays with
  | null => exact .bind (.blanks blank rfl _) (.step (.advance _ _) (.word _ _))
  | yes => exact .bind (.blanks blank rfl _) (.step (.advance _ _) (.word _ _))
  | no => exact .bind (.blanks blank rfl _) (.step (.advance _ _) (.word _ _))
  | number n =>
    have number := takes_skipNumber n closed
    obtain ⟨b, ds, bytes, digits, _⟩ := written_digits n.whole
    have digit := digits b (.head _)
    rw [Numeral.bytes]
    rw [bytes] at number ⊢
    cases n.negative with
    | true => exact .bind (.blanks blank rfl _) (.step (.advance _ _) number)
    | false =>
      refine .bind (.blanks blank (isSpace_digit digit) _) ?_
      -- A digit is none of the bytes that the reader looks for first.
      split <;> rename_i same <;> cases same <;> try contradiction
      rw [if_pos digit]
      exact number
  | string l =>
    refine .bind (.blanks blank rfl _) (.step (.advance _ _) (.get fun n => ?_))
    refine Skipped.literal l rest _ ?_
    simp only [List.length_append]
    omega
  | @list items s h lays behind =>
    refine .bind (.blanks blank rfl _) (.step (.advance _ _) ?_)
    simp only [List.length_cons, List.length_append] at enough
    cases lays with
    | nil =>
      rw [List.nil_append]
      exact .bind (.blanks behind rfl _) (.advance _ _)
    | cons joint lays others =>
      cases joint with
      | first within =>
        obtain ⟨b, more, rfl, begins⟩ := lays.begins
        obtain ⟨space, ends, _⟩ := begins.mark
        simp only [List.length_append] at enough
        have value := skips.value lays (by omega) blank_nil (closed_items others behind rest)
        have items : Takes (skipItems fuel) _ rest () := skips.items others (by omega) behind
        rw [List.append_assoc, List.append_assoc]
        refine .bind (.blanks within space _) ?_
        split
        · contradiction
        · rename_i same
          exact absurd (Option.some.inj same) ends
        · exact .bind value items
  | @object members s h lays behind =>
    refine .bind (.blanks blank rfl _) (.step (.advance _ _) ?_)
    simp only [List.length_cons, List.length_append] at enough
    cases members with
    | nil =>
      cases lays with
      | nil =>
        rw [List.nil_append]
        exact .bind (.blanks behind rfl _) (.advance _ _)
    | cons member members =>
      obtain ⟨i, s, rfl, within, lays⟩ := lays.ahead
      simp only [List.length_append] at enough
      have fields : Takes (skipFields fuel) _ rest () := skips.fields lays (by omega) behind
      rw [List.append_assoc]
      exact .bind (.blanks within rfl _) fields

theorem items_succ (skips : Skips fuel) {items : List Tree} (lays : LaysItems false items s)
    (enough : s.length < fuel + 1) (blank : Blank g) :
    Takes (skipItems (fuel + 1)) (s ++ (g ++ [0x5D])) rest () := by
  cases items with
  | nil =>
    cases lays with
    | nil =>
      rw [List.nil_append]
      exact .bind (.blanks blank rfl _) (.advance _ _)
  | cons t items =>
    obtain ⟨h, s, rfl, before, lays⟩ := lays.behind
    simp only [List.length_cons, List.length_append] at enough
    rw [List.append_assoc, List.cons_append]
    refine .bind (.blanks before rfl _) (.step (.advance _ _) ?_)
    cases lays with
    | @cons _ _ _ i s others joint value more =>
      cases joint with
      | first within =>
        simp only [List.length_append] at enough
        have value := skips.value value (by omega) within (closed_items more blank rest)
        have items : Takes (skipItems fuel) _ rest () := skips.items more (by omega) blank
        have order : i ++ (s ++ others) ++ (g ++ [0x5D]) = (i ++ s) ++ (others ++ (g ++ [0x5D])) := by
          simp only [List.append_assoc]
        rw [order]
        exact .bind value items

theorem fields_succ (skips : Skips fuel) {member : String × Tree} {members : List (String × Tree)}
    (lays : LaysMembers true (member :: members) s) (enough : s.length < fuel + 1) (blank : Blank g) :
    Takes (skipFields (fuel + 1)) (s ++ (g ++ [0x7D])) rest () := by
  cases lays with
  | @cons _ _ _ _ i _ h j s others joint spells before behind value more =>
    cases joint with
    | first within =>
      obtain ⟨l, _, rfl⟩ := spells
      simp only [List.length_cons, List.length_append] at enough
      have value := skips.value value (by omega) behind (closed_members more blank rest)
      have order : i ++ (l.quoted ++ (h ++ 0x3A :: (j ++ (s ++ others)))) ++ (g ++ [0x7D]) =
          i ++ 0x22 :: ((l.bytes ++ [0x22]) ++ (h ++ 0x3A :: ((j ++ s) ++ (others ++ (g ++ [0x7D]))))) := by
        simp only [Literal.quoted, List.cons_append, List.append_assoc, List.nil_append]
      rw [order]
      refine .bind (.blanks within rfl _) (.step (.advance _ _) (.get fun n => ?_))
      refine .bind (Skipped.literal l _ _ ?_) ?_
      · simp only [List.length_append]
        omega
      refine .bind (.blanks before rfl _) (.step (.advance _ _) ?_)
      refine .bind value ?_
      cases members with
      | nil =>
        cases more with
        | nil =>
          rw [List.nil_append]
          exact .bind (.blanks blank rfl _) (.advance _ _)
      | cons member members =>
        obtain ⟨k, s', rfl, ahead, lays⟩ := more.behind
        simp only [List.length_cons, List.length_append] at enough
        have fields : Takes (skipFields fuel) _ rest () := skips.fields lays (by omega) blank
        rw [List.append_assoc, List.cons_append]
        exact .bind (.blanks ahead rfl _) (.step (.advance _ _) fields)

end Skips

theorem skips (fuel : Nat) : Skips fuel := by
  induction fuel with
  | zero => exact ⟨nofun, nofun, nofun⟩
  | succ fuel ih => exact ⟨ih.value_succ, ih.items_succ, ih.fields_succ⟩

end Patchbay.Json
