import Patchbay.Message
import Patchbay.Proofs.Binary.Narrowing
import Patchbay.Proofs.Decimal.Grammar

/-!
What a word is taken for. Three readers are asked in turn, one for the beginning, one for integers and one
for decimals; together they follow the grammar of numbers. A text of an integer is an integer if it fits,
any other text of a decimal is the float nearest to it, and every other word is a symbol, among them the
names of infinity and of what is no number.
-/
namespace Patchbay.Message

open Binary Decimal

theorem looksNumeric_figures {negative : Bool} {sign s : List Char} (signed : Sign negative sign)
    (figures : Figures s) (rest : List Char) : looksNumeric (sign ++ (s ++ rest)) = true := by
  rw [looksNumeric, splitSign_signed signed fun c first => .inl (figures.head rest c first)]
  obtain ⟨c, s, rfl⟩ := List.exists_cons_of_ne_nil figures.1
  have digit := figures.2 c List.mem_cons_self
  have point : c ≠ '.' := by
    rintro rfl
    cases digit
  simp [point, digit]

theorem looksNumeric_decimal {d : Numeral} {word : List Char} (text : DecimalText d word) :
    looksNumeric word = true := by
  obtain @⟨sign, all, m, x, places, e, signed, mantissa, _, _, _⟩ := text
  cases mantissa with
  | whole figures => exact looksNumeric_figures signed figures x
  | pointed figures more =>
    rw [List.append_assoc]
    exact looksNumeric_figures signed figures _
  | fraction figures =>
    rw [looksNumeric, splitSign_signed signed (Mantissa.head (.fraction figures) x)]
    obtain ⟨c, s, rfl⟩ := List.exists_cons_of_ne_nil figures.1
    exact figures.2 c List.mem_cons_self

theorem integer?_of_wordy {word : List Char} (wordy : numeral? word = none) : integer? word = none := by
  refine Option.eq_none_iff_forall_ne_some.mpr fun n read => ?_
  obtain ⟨d, text⟩ := (integer?_eq_some_iff.mp read).decimal
  rw [numeral?_eq_some_iff.mpr text] at wordy
  cases wordy

/-- The look at the beginning decides nothing that the readers would not. -/
theorem classify_eq (word : List Char) :
    classify word =
      match integer? word, numeral? word with
      | some n, _ => .int n
      | none, some d => .float d.toSingle
      | none, none => .symbol (String.ofList word) := by
  by_cases looks : looksNumeric word = true
  · rw [classify, if_pos looks, single?]
    cases integer? word with
    | some n => rfl
    | none => cases numeral? word <;> rfl
  · have wordy : numeral? word = none := Option.eq_none_iff_forall_ne_some.mpr fun d read =>
      looks (looksNumeric_decimal (numeral?_eq_some_iff.mp read))
    rw [classify, if_neg looks, integer?_of_wordy wordy, wordy]

/-- A word that is no numeral is a symbol. -/
theorem classify_word {word : List Char} (wordy : numeral? word = none) :
    classify word = .symbol (String.ofList word) := by
  rw [classify_eq, integer?_of_wordy wordy, wordy]

theorem classify_decimal {word : List Char} {x : Single} (read : single? word = some x) :
    classify word = match integer? word with
      | some n => .int n
      | none => .float x := by
  obtain ⟨d, decimal, rfl⟩ := Option.map_eq_some_iff.mp read
  rw [classify_eq, decimal]
  cases integer? word <;> rfl

theorem nearest_toSingle (d : Numeral) : d.toSingle.Nearest d.negative (d.digits * 10 ^ d.exp) :=
  (Layout.rounds_nearestDecimal Layout.narrow_modest d.digits d.exp).nearest (by positivity) d.negative

theorem integer?_eq_none_iff {word : List Char} :
    integer? word = none ↔ ∀ n, IntegerText n word → ¬ Fits n := by
  constructor
  · intro none n text fits
    rw [text.integer?, if_pos fits] at none
    cases none
  · intro outside
    refine Option.eq_none_iff_forall_ne_some.mpr fun n read => ?_
    exact outside n.toInt (integer?_eq_some_iff.mp read) (fits_toInt n)

/-- A word is an integer if it is the text of one that sixty-four bits hold, else a float, and never one
that is no number, if it is the text of a decimal, and else itself. -/
theorem classify_exactly (word : List Char) :
    (∀ n : Int64, classify word = .int n ↔ IntegerText n.toInt word) ∧
      ((∃ x, classify word = .float x) ↔
        (∀ n, IntegerText n word → ¬ Fits n) ∧ ∃ d, DecimalText d word) ∧
      (∀ s, classify word = .symbol s ↔ s = String.ofList word ∧ ∀ d, ¬ DecimalText d word) ∧
      (∀ x d, classify word = .float x → DecimalText d word →
        x.Nearest d.negative (d.digits * 10 ^ d.exp)) ∧
      ∀ x, classify word = .float x → x.datum ≠ .nan := by
  simp only [← integer?_eq_some_iff, ← numeral?_eq_some_iff, ← integer?_eq_none_iff]
  rw [classify_eq]
  cases integer : integer? word with
  | some n =>
    obtain ⟨d, text⟩ := (integer?_eq_some_iff.mp integer).decimal
    simp [numeral?_eq_some_iff.mpr text]
  | none =>
    cases decimal : numeral? word with
    | none => simp [eq_comm]
    | some d =>
      have nearest := nearest_toSingle d
      simp [nearest, nearest.datum_ne_nan]

end Patchbay.Message
