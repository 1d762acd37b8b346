import Patchbay.Decimal.Layout
import Patchbay.Proofs.Decimal.Integer
import Patchbay.Proofs.Decimal.Shortest
import Patchbay.Text.Blank

/-!
Floats written without an exponent and read again. The text of a finite float is some figures, maybe
with a point among them and a minus in front; it stands for a rational that has the nearest pattern of the
float, so that it reads as the float, the sign of a zero included.
-/
namespace Patchbay.Decimal

open Binary Text

/-- A zero stands in front of no other figure. -/
def Trim (s : List Char) : Prop := s.head? = some '0' → s = ['0']

/-- The plain texts of a rational that is not negative: figures, or figures with a point among them. -/
inductive Spells (v : ℚ) : List Char → Prop
  | whole {s : List Char} (figures : Figures s) (trim : Trim s) (value : (natOfDigits s : ℚ) = v) :
      Spells v s
  | pointed {s part : List Char} (figures : Figures s) (trim : Trim s) (places : Figures part)
      (value : (natOfDigits (s ++ part) : ℚ) * 10 ^ (-(part.length : Int)) = v) :
      Spells v (s ++ '.' :: part)

theorem trim_written (n : Nat) : Trim (Nat.toDigits 10 n) := fun zero => by
  rcases n.eq_zero_or_pos with rfl | positive
  · rfl
  · exact absurd zero (head_written positive)

theorem spells_written (n : Nat) : Spells n (Nat.toDigits 10 n) :=
  .whole (figures_written n) (trim_written n) (by rw [natOfDigits_written])

theorem Spells.chars {v : ℚ} {s : List Char} (spells : Spells v s) :
    s ≠ [] ∧ ∀ c ∈ s, isDigit c = true ∨ c = '.' := by
  cases spells with
  | whole figures => exact ⟨figures.1, fun c member => .inl (figures.2 c member)⟩
  | pointed figures _ places =>
    refine ⟨List.append_ne_nil_of_left_ne_nil figures.1 _, fun c member => ?_⟩
    rcases List.mem_append.mp member with front | back
    · exact .inl (figures.2 c front)
    · exact (List.mem_cons.mp back).elim .inr fun digit => .inl (places.2 c digit)

theorem Figures.append {s t : List Char} (figures : Figures s) (more : ∀ c ∈ t, isDigit c = true) :
    Figures (s ++ t) := by
  refine ⟨fun none => figures.1 (List.append_eq_nil_iff.mp none).1, fun c member => ?_⟩
  rcases List.mem_append.mp member with first | second
  · exact figures.2 c first
  · exact more c second

theorem natOfDigits_zeros (n : Nat) (s : List Char) :
    natOfDigits (s ++ List.replicate n '0') = natOfDigits s * 10 ^ n := by
  have append := Nat.ofDigitChars_append (b := 10) (l := s) (m := List.replicate n '0') 0
  rw [Nat.ofDigitChars_replicate_zero, mul_comm] at append
  exact append

theorem natOfDigits_behind_zeros (n : Nat) (s : List Char) :
    natOfDigits (List.replicate n '0' ++ s) = natOfDigits s := by
  have append := Nat.ofDigitChars_append (b := 10) (l := List.replicate n '0') (m := s) 0
  rw [Nat.ofDigitChars_replicate_zero, mul_zero] at append
  exact append

theorem zeros_digits {n : Nat} {c : Char} (member : c ∈ List.replicate n '0') : isDigit c = true := by
  rw [(List.mem_replicate.mp member).2]
  rfl

theorem positional_eq (d : Scaled) :
    (positional false d).toList =
      if 0 ≤ d.exp then Nat.toDigits 10 d.digits ++ List.replicate d.exp.toNat '0'
      else if (-d.exp).toNat < (Nat.toDigits 10 d.digits).length then
        (Nat.toDigits 10 d.digits).take ((Nat.toDigits 10 d.digits).length - (-d.exp).toNat) ++
          '.' :: (Nat.toDigits 10 d.digits).drop ((Nat.toDigits 10 d.digits).length - (-d.exp).toNat)
      else '0' :: '.' :: (List.replicate ((-d.exp).toNat - (Nat.toDigits 10 d.digits).length) '0' ++
        Nat.toDigits 10 d.digits) := by
  have written : toString d.digits = String.ofList (Nat.toDigits 10 d.digits) :=
    Nat.toString_eq_ofList_toDigits
  change (if 0 ≤ d.exp then
      toString d.digits ++ String.ofList (List.replicate d.exp.toNat '0') ++ ""
    else if (-d.exp).toNat < (toString d.digits).length then
      String.ofList ((toString d.digits).toList.take ((toString d.digits).length - (-d.exp).toNat)) ++ "." ++
        String.ofList ((toString d.digits).toList.drop ((toString d.digits).length - (-d.exp).toNat))
    else "0." ++ (String.ofList (List.replicate ((-d.exp).toNat - (toString d.digits).length) '0') ++
      toString d.digits)).toList = _
  rw [written, String.length_ofList, String.toList_ofList]
  split
  · simp
  · split <;> simp

theorem positional_spells {d : Scaled} (zero : d.digits = 0 → d.exp = 0) :
    Spells (valueOf d) (positional false d).toList := by
  have figures := figures_written d.digits
  have trim := trim_written d.digits
  have value := natOfDigits_written d.digits
  rw [positional_eq, valueOf]
  rw [← value] at zero
  generalize Nat.toDigits 10 d.digits = s at figures trim value zero ⊢
  rw [← value]
  split
  · rename_i whole
    obtain ⟨n, exp⟩ := Int.eq_ofNat_of_zero_le whole
    refine .whole (figures.append fun c => zeros_digits) (fun first => ?_) ?_
    · rw [List.head?_append_of_ne_nil _ figures.1] at first
      obtain rfl := trim first
      rw [zero rfl]
      rfl
    rw [natOfDigits_zeros, exp, Int.toNat_natCast, zpow_natCast]
    push_cast
    rfl
  · rename_i below
    obtain ⟨n, exp⟩ := Int.eq_ofNat_of_zero_le (a := -d.exp) (by omega)
    have places : d.exp = -(n : Int) := by omega
    have some : 0 < n := by omega
    rw [exp, Int.toNat_natCast, places]
    split
    · rename_i inner
      have front : 0 < (s.take (s.length - n)).length := by rw [List.length_take]; omega
      have back : (s.drop (s.length - n)).length = n := by rw [List.length_drop]; omega
      refine .pointed ⟨List.ne_nil_of_length_pos front, fun c member => figures.2 c
        (List.mem_of_mem_take member)⟩ (fun first => ?_) ⟨List.ne_nil_of_length_pos (by omega), fun c member =>
        figures.2 c (List.mem_of_mem_drop member)⟩ ?_
      · rw [List.head?_take, if_neg (by omega)] at first
        rw [trim first] at inner
        exact absurd inner (by simp [some.ne'])
      rw [List.take_append_drop, back]
    · rename_i outer
      have length : (List.replicate (n - s.length) '0' ++ s).length = n := by
        rw [List.length_append, List.length_replicate]
        omega
      have pad : Figures (List.replicate (n - s.length) '0' ++ s) := by
        refine ⟨List.ne_nil_of_length_pos (by omega), fun c member => ?_⟩
        rcases List.mem_append.mp member with zero | digit
        · exact zeros_digits zero
        · exact figures.2 c digit
      refine .pointed (s := ['0']) ⟨List.cons_ne_nil _ _, fun c => zeros_digits (n := 1)⟩ (fun _ => rfl) pad ?_
      have zero := natOfDigits_behind_zeros (n - s.length + 1) s
      rw [List.replicate_succ, List.cons_append] at zero
      rw [List.singleton_append, zero, length]

theorem digit_not_blank {c : Char} (digit : isDigit c = true) : isBlank c = false := by
  simp only [isDigit, Bool.and_eq_true, decide_eq_true_eq, Char.le_def, UInt32.le_iff_toNat_le] at digit
  have low : 48 ≤ c.toNat := digit.1
  have high : c.toNat ≤ 57 := digit.2
  simp only [isBlank, blankRanges, List.any_cons, List.any_nil, Bool.or_false, Bool.or_eq_false_iff,
    Bool.and_eq_false_iff, decide_eq_false_iff_not]
  omega

theorem splitSign_minus {s : List Char} (figures : Figures s) (negative : Bool) (rest : List Char) :
    splitSign (minus negative ++ (s ++ rest)) = (negative, s ++ rest) := by
  cases negative
  · exact splitSign_figures figures rest
  · rfl

theorem takeWhile_figures {s : List Char} (digits : ∀ c ∈ s, isDigit c = true) (rest : List Char)
    (ends : ∀ c ∈ rest.head?, isDigit c = false) :
    (s ++ rest).takeWhile isDigit = s ∧ (s ++ rest).dropWhile isDigit = rest := by
  rw [List.takeWhile_append_of_pos digits, List.dropWhile_append_of_pos digits]
  cases rest with
  | nil => simp
  | cons c rest =>
    have stop := ends c rfl
    simp [stop]

theorem Figures.isEmpty {s : List Char} (figures : Figures s) : s.isEmpty = false :=
  List.isEmpty_eq_false_iff.mpr figures.1

theorem numeral?_whole {s : List Char} (figures : Figures s) (negative : Bool) :
    numeral? (minus negative ++ s) = some ⟨negative, natOfDigits s, 0⟩ := by
  have split := splitSign_minus figures negative []
  obtain ⟨front, back⟩ := takeWhile_figures figures.2 [] nofun
  rw [List.append_nil] at split front back
  simp [numeral?, split, front, back, figures.isEmpty, exponent?]

theorem numeral?_pointed {s part : List Char} (figures : Figures s) (places : Figures part)
    (negative : Bool) :
    numeral? (minus negative ++ (s ++ '.' :: part)) =
      some ⟨negative, natOfDigits (s ++ part), -(part.length : Int)⟩ := by
  have split := splitSign_minus figures negative ('.' :: part)
  obtain ⟨front, back⟩ := takeWhile_figures figures.2 ('.' :: part)
    fun c first => by cases first; rfl
  obtain ⟨front', back'⟩ := takeWhile_figures places.2 [] nofun
  rw [List.append_nil] at front' back'
  simp [numeral?, split, front, back, front', back', figures.isEmpty, exponent?]

theorem integer?_pointed {s part : List Char} (figures : Figures s) (negative : Bool) :
    integer? (minus negative ++ (s ++ '.' :: part)) = none := by
  have split := splitSign_minus figures negative ('.' :: part)
  have point : isDigit '.' = false := rfl
  simp [integer?, split, point]

theorem Spells.numeral? {v : ℚ} {s : List Char} (spells : Spells v s) (negative : Bool) :
    ∃ digits e, Decimal.numeral? (minus negative ++ s) = some ⟨negative, digits, e⟩ ∧
      (digits * 10 ^ e : ℚ) = v := by
  cases spells with
  | whole figures _ value =>
    exact ⟨_, _, numeral?_whole figures negative, by rw [zpow_zero, mul_one, value]⟩
  | pointed figures _ places value => exact ⟨_, _, numeral?_pointed figures places negative, value⟩

theorem renderMagnitude_some {p : Nat} (finite : p < Layout.narrow.infinity) (some : p ≠ 0) :
    renderMagnitude .plain .narrow (Layout.narrow.units p) (Layout.narrow.place p) =
      positional false (decimalOf p) ∧ (decimalOf p).digits ≠ 0 := by
  have modest := Layout.narrow_modest
  have units : Layout.narrow.units p ≠ 0 := by
    intro zero
    have none : Layout.narrow.value p = Layout.narrow.value 0 := by
      rw [Layout.value, zero, Layout.value_zero, Nat.cast_zero, zero_mul]
    exact some (Layout.value_strictMono.injective none)
  have reads := shortest_reads modest .upward (Layout.narrow.units p) (Layout.narrow.place p)
  rw [Layout.nearestDyadic_exact modest.fraction_pos finite] at reads
  have lead := lead_bounds modest (reads.trans_ne some) (reads.trans_ne finite.ne)
  constructor
  · rw [renderMagnitude, if_neg units, if_pos]
    · rfl
    · rw [Bool.and_eq_true, decide_eq_true_eq, decide_eq_true_eq]
      exact lead
  · intro zero
    refine some (reads.symm.trans ?_)
    change Layout.narrow.nearestDecimal (decimalOf p).digits (decimalOf p).exp = 0
    simp [Layout.nearestDecimal, zero]

/-- The text of a finite float spells zero or its shortest decimal, to which the float is nearest. -/
theorem render_finite {x : Single} {negative : Bool} {m : Nat} {q : Int}
    (finite : x.datum = .finite negative m q) :
    ∃ s v p, (render .plain .narrow x.datum).toList = minus negative ++ s ∧ Spells v s ∧
      p < Layout.narrow.infinity ∧ Layout.narrow.Rounds v p ∧ (v = 0 ∨ v = valueOf (decimalOf p)) ∧
      x = Single.ofPattern negative p := by
  obtain ⟨p, below, rfl, rfl, same⟩ := Single.exists_pattern finite
  have sign (text : String) : ((if negative && (Layout.narrow.units p ≠ 0 || Notation.plain.signedZero)
      then "-" else "") ++ text).toList = minus negative ++ text.toList := by
    cases negative <;> simp [minus, Notation.plain]
  rw [finite, render, sign]
  by_cases zero : p = 0
  · subst zero
    have rounds := Layout.rounds_value below
    rw [Layout.value_zero] at rounds
    refine ⟨_, 0, 0, rfl, ?_, below, rounds, .inl rfl, same⟩
    exact .whole (s := ['0']) ⟨List.cons_ne_nil _ _, fun c => zeros_digits (n := 1)⟩ (fun _ => rfl) rfl
  · obtain ⟨written, some⟩ := renderMagnitude_some below zero
    rw [written]
    exact ⟨_, _, p, rfl, positional_spells fun none => absurd none some, below, rounds_decimalOf below,
      .inr rfl, same⟩

/-- The text of a finite float reads as this float. -/
theorem single?_render {x : Single} {negative : Bool} {m : Nat} {q : Int}
    (finite : x.datum = .finite negative m q) :
    single? (render .plain .narrow x.datum).toList = some x := by
  obtain ⟨s, v, p, written, spells, _, rounds, _, same⟩ := render_finite finite
  obtain ⟨digits, e, read, value⟩ := spells.numeral? negative
  have pattern : Layout.narrow.nearestDecimal digits e = p :=
    (Layout.rounds_nearestDecimal Layout.narrow_modest digits e).unique (value ▸ rounds)
  rw [single?, written, read, same, ← pattern]
  rfl

example : render .plain .narrow (Single.datum ⟨0xC0490FDB⟩) = "-3.1415927" := by decide +kernel

end Patchbay.Decimal
