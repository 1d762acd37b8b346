import Patchbay.Proofs.Decimal.Written

/-!
The texts that are numbers. An integer is some figures behind a sign, if there is one; a decimal may also
have a point among its figures, in front of them or behind them, and an exponent after that. The readers
take the texts of this grammar, each for its own number, and no other text.
-/
namespace Patchbay.Decimal

open Binary

inductive Sign : Bool → List Char → Prop
  | none : Sign false []
  | plus : Sign false ['+']
  | minus : Sign true ['-']

inductive IntegerText (n : Int) : List Char → Prop
  | mk {negative : Bool} {sign s : List Char} (signed : Sign negative sign) (figures : Figures s)
      (value : n = if negative then -(natOfDigits s : Int) else natOfDigits s) :
      IntegerText n (sign ++ s)

/-- The figures of a decimal with its point: all of them in order, and how many stand behind the point. -/
inductive Mantissa : List Char → Nat → List Char → Prop
  | whole {s : List Char} (figures : Figures s) : Mantissa s 0 s
  | pointed {s part : List Char} (figures : Figures s) (more : ∀ c ∈ part, isDigit c = true) :
      Mantissa (s ++ part) part.length (s ++ '.' :: part)
  | fraction {part : List Char} (figures : Figures part) : Mantissa part part.length ('.' :: part)

inductive Exponent (e : Int) : List Char → Prop
  | none (value : e = 0) : Exponent e []
  | marked {mark : Char} {negative : Bool} {sign s : List Char} (marks : mark = 'e' ∨ mark = 'E')
      (signed : Sign negative sign) (figures : Figures s)
      (value : e = if negative then -(natOfDigits s : Int) else natOfDigits s) :
      Exponent e (mark :: (sign ++ s))

inductive DecimalText (n : Numeral) : List Char → Prop
  | mk {sign all m x : List Char} {places : Nat} {e : Int} (signed : Sign n.negative sign)
      (mantissa : Mantissa all places m) (exponent : Exponent e x) (digits : n.digits = natOfDigits all)
      (exp : n.exp = e - places) : DecimalText n (sign ++ (m ++ x))

theorem exists_sign (s : List Char) : ∃ sign, Sign (splitSign s).1 sign ∧ s = sign ++ (splitSign s).2 := by
  unfold splitSign
  split
  · exact ⟨['-'], .minus, rfl⟩
  · exact ⟨['+'], .plus, rfl⟩
  · exact ⟨[], .none, rfl⟩

theorem splitSign_signed {negative : Bool} {sign s : List Char} (signed : Sign negative sign)
    (unsigned : ∀ c ∈ s.head?, isDigit c = true ∨ c = '.') : splitSign (sign ++ s) = (negative, s) := by
  cases signed with
  | plus | minus => rfl
  | none =>
    rw [List.nil_append]
    unfold splitSign
    split
    · simpa [isDigit] using unsigned '-' rfl
    · simpa [isDigit] using unsigned '+' rfl
    · rfl

theorem Figures.head {s : List Char} (figures : Figures s) (rest : List Char) :
    ∀ c ∈ (s ++ rest).head?, isDigit c = true := by
  obtain ⟨d, s, rfl⟩ := List.exists_cons_of_ne_nil figures.1
  rintro _ ⟨⟩
  exact figures.2 d List.mem_cons_self

theorem figures_of_passed {s : List Char} (passed : ¬ (s.isEmpty || !s.all isDigit) = true) : Figures s := by
  simpa [Figures] using passed

theorem Figures.passed {s : List Char} (figures : Figures s) : ¬ (s.isEmpty || !s.all isDigit) = true := by
  simpa [Figures] using figures

theorem Sign.splitSign {negative : Bool} {sign s : List Char} (signed : Sign negative sign)
    (figures : Figures s) : Decimal.splitSign (sign ++ s) = (negative, s) := by
  have head := figures.head []
  rw [List.append_nil] at head
  exact splitSign_signed signed fun c first => .inl (head c first)

theorem IntegerText.eq_value {n : Int} {s : List Char} (text : IntegerText n s) :
    n = if (splitSign s).1 then -(natOfDigits (splitSign s).2 : Int) else natOfDigits (splitSign s).2 := by
  obtain ⟨signed, figures, value⟩ := text
  rw [signed.splitSign figures]
  exact value

theorem IntegerText.integer? {n : Int} {s : List Char} (text : IntegerText n s) :
    integer? s = if Fits n then some (Int64.ofInt n) else none := by
  obtain ⟨signed, figures, rfl⟩ := text
  exact integer?_of_split _ figures (signed.splitSign figures)

theorem Fits.toInt_ofInt {n : Int} (fits : Fits n) : (Int64.ofInt n).toInt = n :=
  Int64.toInt_ofInt_of_le fits.1 (Int.lt_add_one_of_le fits.2)

theorem fits_toInt (n : Int64) : Fits n.toInt := ⟨n.le_toInt, Int.le_of_lt_add_one n.toInt_lt⟩

theorem exists_integerText {s : List Char} {n : Int64} (read : integer? s = some n) :
    ∃ k, IntegerText k s ∧ Fits k ∧ n = Int64.ofInt k := by
  obtain ⟨sign, signed, written⟩ := exists_sign s
  rcases parts : splitSign s with ⟨negative, digits⟩
  simp only [parts] at signed written
  by_cases passed : (digits.isEmpty || !digits.all isDigit) = true
  · simp [integer?, parts, passed] at read
  · have figures := figures_of_passed passed
    rw [integer?_of_split negative figures parts] at read
    by_cases fits : Fits (if negative then -(natOfDigits digits : Int) else natOfDigits digits)
    · rw [if_pos fits] at read
      rw [written]
      exact ⟨_, .mk signed figures rfl, fits, (Option.some.inj read).symm⟩
    · rw [if_neg fits] at read
      cases read

theorem integer?_eq_some_iff {s : List Char} {n : Int64} : integer? s = some n ↔ IntegerText n.toInt s := by
  constructor
  · intro read
    obtain ⟨k, text, fits, rfl⟩ := exists_integerText read
    rwa [fits.toInt_ofInt]
  · intro text
    rw [text.integer?, if_pos (fits_toInt n), Int64.ofInt_toInt]

theorem Exponent.head {e : Int} {x : List Char} (exponent : Exponent e x) :
    ∀ c ∈ x.head?, isDigit c = false ∧ c ≠ '.' := by
  cases exponent with
  | none => nofun
  | marked marks =>
    rintro _ ⟨⟩
    rcases marks with rfl | rfl <;> decide

theorem exponent?_eq_some_iff {x : List Char} {e : Int} : exponent? x = some e ↔ Exponent e x := by
  constructor
  · intro read
    cases x with
    | nil =>
      cases read
      exact .none rfl
    | cons c rest =>
      obtain ⟨sign, signed, written⟩ := exists_sign rest
      rcases parts : splitSign rest with ⟨negative, digits⟩
      simp only [parts] at signed written
      rw [exponent?] at read
      split at read
      · rename_i marks
        simp only [parts] at read
        split at read
        · cases read
        · rename_i passed
          cases read
          rw [written]
          exact .marked (by simpa using marks) signed (figures_of_passed passed) rfl
      · cases read
  · rintro (rfl | ⟨marks, signed, figures, rfl⟩)
    · rfl
    · rw [exponent?, if_pos (by simpa using marks)]
      simp only [signed.splitSign figures, if_neg figures.passed]

def splitPoint (s : List Char) : List Char × List Char × List Char :=
  let (part, rest) := match s.dropWhile isDigit with
    | '.' :: rest => (rest.takeWhile isDigit, rest.dropWhile isDigit)
    | rest => ([], rest)
  (s.takeWhile isDigit, part, rest)

theorem numeral?_eq (s : List Char) :
    numeral? s =
      let (whole, part, rest) := splitPoint (splitSign s).2
      if whole.isEmpty && part.isEmpty then none
      else (exponent? rest).map fun e => ⟨(splitSign s).1, natOfDigits (whole ++ part), e - part.length⟩ :=
  rfl

theorem splitPoint_pointed {s part x : List Char} (digits : ∀ c ∈ s, isDigit c = true)
    (more : ∀ c ∈ part, isDigit c = true) (ends : ∀ c ∈ x.head?, isDigit c = false) :
    splitPoint (s ++ '.' :: (part ++ x)) = (s, part, x) := by
  obtain ⟨front, back⟩ := takeWhile_figures digits ('.' :: (part ++ x)) fun c first => by cases first; rfl
  obtain ⟨front', back'⟩ := takeWhile_figures more x ends
  simp only [splitPoint, front, back, front', back']

theorem splitPoint_whole {s x : List Char} (digits : ∀ c ∈ s, isDigit c = true)
    (ends : ∀ c ∈ x.head?, isDigit c = false ∧ c ≠ '.') : splitPoint (s ++ x) = (s, [], x) := by
  obtain ⟨front, back⟩ := takeWhile_figures digits x fun c first => (ends c first).1
  simp only [splitPoint, front, back]
  split
  · exact absurd rfl (ends '.' rfl).2
  · rfl

theorem Mantissa.splitPoint {all m x : List Char} {places : Nat} (mantissa : Mantissa all places m)
    (ends : ∀ c ∈ x.head?, isDigit c = false ∧ c ≠ '.') :
    ∃ whole part, Decimal.splitPoint (m ++ x) = (whole, part, x) ∧ whole ++ part = all ∧
      part.length = places ∧ ¬ (whole.isEmpty && part.isEmpty) = true := by
  cases mantissa with
  | whole figures =>
    exact ⟨_, _, splitPoint_whole figures.2 ends, List.append_nil _, rfl, by simp [figures.1]⟩
  | pointed figures more =>
    refine ⟨_, _, ?_, rfl, rfl, by simp [figures.1]⟩
    rw [List.append_assoc, List.cons_append]
    exact splitPoint_pointed figures.2 more fun c first => (ends c first).1
  | fraction figures =>
    have empty : ∀ c ∈ ([] : List Char), isDigit c = true := List.forall_mem_nil _
    refine ⟨[], _, ?_, rfl, rfl, by simp [figures.1]⟩
    exact splitPoint_pointed empty figures.2 fun c first => (ends c first).1

theorem digits_takeWhile (s : List Char) : ∀ c ∈ s.takeWhile isDigit, isDigit c = true :=
  List.all_eq_true.mp List.all_takeWhile

theorem splitPoint_parts {s whole part x : List Char} (split : splitPoint s = (whole, part, x)) :
    (∀ c ∈ whole, isDigit c = true) ∧ (∀ c ∈ part, isDigit c = true) ∧
      (s = whole ++ '.' :: (part ++ x) ∨ part = [] ∧ s = whole ++ x) := by
  have parts : s.takeWhile isDigit ++ s.dropWhile isDigit = s := List.takeWhile_append_dropWhile
  rcases behind : s.dropWhile isDigit with _ | ⟨c, rest⟩
  · simp only [splitPoint, behind, Prod.mk.injEq] at split
    obtain ⟨rfl, rfl, rfl⟩ := split
    exact ⟨digits_takeWhile s, List.forall_mem_nil _, .inr ⟨rfl, by rw [← behind, parts]⟩⟩
  · by_cases point : c = '.'
    · subst point
      simp only [splitPoint, behind, Prod.mk.injEq] at split
      obtain ⟨rfl, rfl, rfl⟩ := split
      refine ⟨digits_takeWhile s, digits_takeWhile rest, .inl ?_⟩
      rw [List.takeWhile_append_dropWhile, ← behind, parts]
    · have split : (s.takeWhile isDigit, [], c :: rest) = (whole, part, x) := by
        simpa [splitPoint, behind, point] using split
      obtain ⟨rfl, rfl, rfl⟩ : _ ∧ _ ∧ _ := by simpa using split
      exact ⟨digits_takeWhile s, List.forall_mem_nil _, .inr ⟨rfl, by rw [← behind, parts]⟩⟩

theorem exists_mantissa {s whole part x : List Char} (split : splitPoint s = (whole, part, x))
    (some : ¬ (whole.isEmpty && part.isEmpty) = true) :
    ∃ m, Mantissa (whole ++ part) part.length m ∧ s = m ++ x := by
  obtain ⟨digits, more, rfl | ⟨rfl, rfl⟩⟩ := splitPoint_parts split
  · cases whole with
    | nil => exact ⟨'.' :: part, .fraction ⟨by simpa using some, more⟩, rfl⟩
    | cons d whole =>
      have figures : Figures (d :: whole) := ⟨List.cons_ne_nil d whole, digits⟩
      exact ⟨_, .pointed figures more, (List.append_assoc (d :: whole) ('.' :: part) x).symm⟩
  · rw [List.append_nil]
    exact ⟨whole, .whole ⟨by simpa using some, digits⟩, rfl⟩

theorem Mantissa.head {all m : List Char} {places : Nat} (mantissa : Mantissa all places m)
    (x : List Char) : ∀ c ∈ (m ++ x).head?, isDigit c = true ∨ c = '.' := by
  intro c first
  cases mantissa with
  | whole figures => exact .inl (figures.head x c first)
  | pointed figures =>
    rw [List.append_assoc] at first
    exact .inl (figures.head _ c first)
  | fraction =>
    cases first
    exact .inr rfl

theorem numeral?_eq_some_iff {s : List Char} {n : Numeral} : numeral? s = some n ↔ DecimalText n s := by
  rw [numeral?_eq]
  constructor
  · intro read
    obtain ⟨sign, signed, written⟩ := exists_sign s
    generalize splitSign s = signs at read signed written
    rcases split : splitPoint signs.2 with ⟨whole, part, rest⟩
    simp only [split] at read
    split at read
    · cases read
    · rename_i some
      obtain ⟨e, exponent, rfl⟩ := Option.map_eq_some_iff.mp read
      obtain ⟨m, mantissa, parts⟩ := exists_mantissa split some
      rw [written, parts]
      exact .mk signed mantissa (exponent?_eq_some_iff.mp exponent) rfl rfl
  · rintro ⟨signed, mantissa, exponent, digits, exp⟩
    obtain ⟨whole, part, split, rfl, rfl, some⟩ := mantissa.splitPoint exponent.head
    rw [splitSign_signed signed (mantissa.head _)]
    simp only [split, if_neg some, exponent?_eq_some_iff.mpr exponent, Option.map_some, ← digits, ← exp]

theorem IntegerText.decimal {n : Int} {s : List Char} (text : IntegerText n s) : ∃ d, DecimalText d s := by
  obtain @⟨negative, sign, s, signed, figures, _⟩ := text
  have text : DecimalText ⟨negative, natOfDigits s, 0⟩ (sign ++ (s ++ [])) :=
    .mk signed (.whole figures) (.none rfl) rfl rfl
  rw [List.append_nil] at text
  exact ⟨_, text⟩

end Patchbay.Decimal
