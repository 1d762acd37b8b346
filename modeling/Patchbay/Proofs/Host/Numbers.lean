import Patchbay.Proofs.Decimal.Halfway
import Patchbay.Proofs.Host.Handling
import Patchbay.Proofs.Lifted
import Patchbay.Proofs.Namespace.Import
import Patchbay.Proofs.Owner.Lifted
import Patchbay.Proofs.Script.Numeral

/-!
Numbers sent to be evaluated. A number is written without an exponent, read by the engine as a double, and
narrowed again for the reply; a double that is an integer is replied as one. What becomes of infinities,
which are written as a name that the engine does not have, is not spoken of.
-/
namespace Patchbay

open Binary Decimal Script Text

def Binary.Single.ofInt (n : Int) : Single := ofPattern (decide (n < 0)) (Layout.narrow.nearest n.natAbs 1)

/-- What a number comes back as: itself, but for a float that is an integer, which may be an integer to
which it is nearest. -/
inductive Echoes : Atom → Atom → Prop
  | int (n : Int64) : Echoes (.int n) (.int n)
  | float (x : Single) : Echoes (.float x) (.float x)
  | nan {x y : Single} (mine : x.datum = .nan) (yours : y.datum = .nan) : Echoes (.float x) (.float y)
  | whole {x : Single} {k : Int} {n : Int64} (integral : x.toRat? = some (k : ℚ))
      (within : k.natAbs ≤ 9007199254740992) (exact : n.toInt.natAbs ≤ Lifted.exactLimit)
      (nearest : (Single.ofInt n.toInt).toRat? = some (k : ℚ)) : Echoes (.float x) (.int n)

/-- A float to which an integer is nearest that a double holds is an integer, as long as it is not too
large for the places of its fraction to be whole ones. -/
theorem value_integral {n p : Nat} (small : n ≤ 9007199254740992) (rounds : Layout.narrow.Rounds n p) :
    ∃ k : Nat, k ≤ 9007199254740992 ∧ Layout.narrow.value p = k := by
  obtain ⟨top, finite, greatest⟩ := Layout.narrow_modest.exists_value (m := 1) (q := 53) (by decide)
    (by decide) (by norm_num [Layout.narrow])
  have less : p ≤ top := by
    have small : (n : ℚ) ≤ 9007199254740992 := by exact_mod_cast small
    refine rounds.mono (Layout.rounds_value finite) (small.trans ?_)
    rw [greatest]
    norm_num
  have le : Layout.narrow.value p ≤ 9007199254740992 := by
    calc Layout.narrow.value p ≤ Layout.narrow.value top := Layout.value_strictMono.monotone less
      _ = 9007199254740992 := by rw [greatest]; norm_num
  have integral : ∃ k : Nat, Layout.narrow.value p = k := by
    rcases le_or_gt 0 (Layout.narrow.place p) with whole | broken
    · obtain ⟨e, place⟩ := Int.eq_ofNat_of_zero_le whole
      refine ⟨Layout.narrow.units p * 2 ^ e, ?_⟩
      rw [Layout.value, place, zpow_natCast]
      push_cast
      rfl
    · -- So small an integer has a float of its own.
      have few : (n : ℚ) < 2 ^ (23 : Int) := by
        calc (n : ℚ) ≤ Layout.narrow.mark p := rounds.le_mark (less.trans_lt finite) le_rfl
          _ < 2 ^ (23 + 1 + Layout.narrow.place p) := Layout.mark_lt p
          _ ≤ 2 ^ (23 : Int) := zpow_le_zpow_right₀ one_le_two (by omega)
      have few : n < 2 ^ 23 := by exact_mod_cast few
      obtain ⟨r, inside, own⟩ := Layout.narrow_modest.exists_value (m := n) (q := 0)
        (few.trans (by decide)) (by decide) (by
          have few : (n : ℚ) < 2 ^ 23 := by exact_mod_cast few
          rw [zpow_zero, mul_one]
          exact few.trans_le (pow_le_pow_right₀ one_le_two (by decide)))
      rw [zpow_zero, mul_one] at own
      have same := rounds.unique (own ▸ Layout.rounds_value inside)
      exact ⟨n, same ▸ own⟩
  obtain ⟨k, same⟩ := integral
  rw [same] at le
  exact ⟨k, by exact_mod_cast le, same⟩

/-- The double of a number, if its float is to be found again, is replied as what the float may come back
as. -/
theorem echoes_number {negative : Bool} {p r : Nat} (finite : p < Layout.narrow.infinity)
    (inside : r < Layout.wide.infinity) (again : Layout.narrow.Rounds (Layout.wide.value r) p) :
    ∃ b, (Lifted.ofNumber (.ofPattern negative r)).encode? = some (.scalar b) ∧
      Echoes (.float (.ofPattern negative p)) b := by
  obtain ⟨k, integral, exact, taken⟩ | kept := ofNumber_cases (.ofPattern negative r)
  · obtain ⟨n, same, sign⟩ := (Double.toInt?_ofPattern inside negative k).mp integral
    rw [same] at again
    have small : n ≤ Lifted.exactLimit := by
      cases negative <;> simp only [Bool.false_eq_true, if_false, if_true] at sign <;> omega
    obtain ⟨j, within, value⟩ := value_integral (n := n) (by rw [Lifted.exactLimit] at small; omega) again
    have nearest : Single.ofInt k = .ofPattern (decide (k < 0)) p := by
      have size : k.natAbs = n := by rw [sign]; cases negative <;> simp
      have rounds := Layout.rounds_nearest Layout.narrow_modest.fraction_pos n one_ne_zero
      rw [Nat.cast_one, div_one] at rounds
      rw [Single.ofInt, size, rounds.unique again]
    refine ⟨_, by rw [taken]; rfl, .whole (k := if negative then -(j : Int) else j) ?_ ?_ ?_ ?_⟩
    · rw [Single.toRat?_ofPattern finite, value]
      cases negative <;> simp
    · cases negative <;> simpa using within
    · rwa [toInt_exact exact]
    · rw [toInt_exact exact, nearest, Single.toRat?_ofPattern finite, value]
      rcases n.eq_zero_or_pos with rfl | positive
      · -- The sign of a zero is lost.
        have zero := again.unique (Layout.value_zero (l := .narrow) ▸ Layout.rounds_value (by decide))
        rw [zero, Layout.value_zero] at value
        obtain rfl : j = 0 := by exact_mod_cast value.symm
        simp
      · have same : decide (k < 0) = negative := by
          rw [sign]
          cases negative <;> simp
          omega
        rw [same]
        cases negative <;> simp
  · have narrowed : Single.ofDouble (.ofPattern negative r) = .ofPattern negative p := by
      have rounds := Layout.rounds_nearestDyadic Layout.narrow_modest.fraction_pos (Layout.wide.units r)
        (Layout.wide.place r)
      rw [Single.ofDouble, Double.datum_ofPattern inside, Single.ofPattern, again.unique rounds]
      rfl
    refine ⟨_, by rw [kept]; rfl, ?_⟩
    rw [narrowed]
    exact .float _

theorem echoes_int {n : Int64} {r : Nat} (exact : n.toInt.natAbs ≤ Lifted.exactLimit)
    (first : Layout.wide.Rounds n.toInt.natAbs r) :
    (Lifted.ofNumber (.ofPattern (decide (n.toInt < 0)) r)).encode? = some (.scalar (.int n)) := by
  have small : n.toInt.natAbs < 2 ^ 53 := Nat.lt_succ_of_le exact
  obtain ⟨own, inside, value⟩ := Layout.wide_modest.exists_value (m := n.toInt.natAbs) (q := 0) small
    (by decide) (by
      have few : (n.toInt.natAbs : ℚ) < 2 ^ 53 := by exact_mod_cast small
      rw [zpow_zero, mul_one]
      exact few.trans_le (pow_le_pow_right₀ one_le_two (by decide)))
  rw [zpow_zero, mul_one] at value
  obtain rfl := first.unique (value ▸ Layout.rounds_value inside)
  have integral := (Double.toInt?_ofPattern inside (decide (n.toInt < 0)) n.toInt).mpr
    ⟨_, value, by simp only [decide_eq_true_eq]; split <;> omega⟩
  have taken : Lifted.ofNumber (.ofPattern (decide (n.toInt < 0)) r) = .int n := by
    rw [Lifted.ofNumber, integral]
    dsimp only
    rw [if_pos exact, Int64.ofInt_toInt]
  rw [taken]
  rfl

theorem runBytes_spelled {source : String} {negative : Bool} {l : List Char} {v : ℚ} (m : Machine)
    (written : source.toList = minus negative ++ l) (spells : Spells v l)
    (finite : ∀ r, Layout.wide.Rounds v r → r < Layout.wide.infinity) :
    ∃ r k, Layout.wide.Rounds v r ∧
      (Namespace.runBytes (Namespace.parenthesized source) true).run.run m =
        .ok (.ok (.number (.ofPattern negative r))) k := by
  have brackets : Parser.Brackets (Namespace.script source) (minus negative ++ l) :=
    written ▸ Namespace.chars_script source
  obtain ⟨r, rounds, read⟩ := Parser.parse_spelled spells brackets 994
  have value : Gives m (runProgram mainEngine ⟨[.expr (Parser.signed negative (.ofPattern false r))], [], true⟩)
      (.number (.ofPattern negative r)) := by
    refine gives_runExpr (d := 2498) ?_
    cases negative
    · exact .pure m _
    · rw [← Double.neg_ofPattern (finite r rounds)]
      refine Gives.bind (a := .number (.ofPattern false r)) (.pure m _) ?_
      exact .pure m _
  have free : ∀ c ∈ source.toList, c.toNat ≠ 0 := by
    rw [written]
    intro c member
    rcases List.mem_append.mp member with sign | inside
    · rw [mem_minus sign]
      decide
    · rcases spells.chars.2 c inside with digit | rfl
      · have low := (Lexer.toNat_of_isDigit digit).1
        omega
      · decide
  obtain ⟨k, ran, -⟩ := Namespace.runBytes_gives free read value
  exact ⟨r, k, rounds, ran⟩

theorem wide_finite {v : ℚ} {r : Nat} (small : v < 2 ^ 128) (rounds : Layout.wide.Rounds v r) :
    r < Layout.wide.infinity := by
  obtain ⟨top, finite, value⟩ := Layout.wide_modest.exists_value (m := 1) (q := 128) (by decide) (by decide)
    (by rw [Nat.cast_one, one_mul]; exact pow_lt_pow_right₀ one_lt_two (by decide))
  refine (rounds.mono (Layout.rounds_value finite) ?_).trans_lt finite
  rw [value, Nat.cast_one, one_mul]
  exact small.le

theorem lift_number (d : Double) (m : Machine) :
    (lift mainEngine (.number d)).run m = .ok (.ok (.ofNumber d)) m := rfl

/-- What is needed of a number and of the machine that it is sent to: an integer is in the exact range; a
float is finite, and not the one whose decimal is rounded twice to another; or it is no number, and the
machine has the name for that. -/
inductive Script.Machine.Takes (m : Machine) : Atom → Prop
  | int {n : Int64} (exact : n.toInt.natAbs ≤ Lifted.exactLimit) : Takes m (.int n)
  | float {x : Single} {negative : Bool} {mag : Nat} {q : Int} (finite : x.datum = .finite negative mag q)
      (other : x.bits ≠ 0x15AE43FD ∧ x.bits ≠ 0x95AE43FD) : Takes m (.float x)
  | nan {x : Single} (none : x.datum = .nan) (undeclared : m.Undeclared (.ofString "NaN"))
      (named : m.property? Proto.global.ref (.ofUnits (.ofString "NaN")) = some (.number .nan)) :
      Takes m (.float x)

theorem evaluate_spelled {source : String} {negative : Bool} {l : List Char} {v : ℚ} (o : Owner)
    (written : source.toList = minus negative ++ l) (spells : Spells v l) (small : v < 2 ^ 128) :
    ∃ r, Layout.wide.Rounds v r ∧ r < Layout.wide.infinity ∧
      ∀ b, (Lifted.ofNumber (.ofPattern negative r)).encode? = some (.scalar b) →
        (o.evaluate source).events = [o.emit .reply (.value (.scalar b)), o.signal] := by
  obtain ⟨r, k, rounds, valued⟩ := runBytes_spelled o.scripts.machine written spells fun r => wide_finite small
  refine ⟨r, rounds, wide_finite small rounds, fun b encoded => ?_⟩
  have text : isAllBlank source.toList = false := by
    obtain ⟨c, rest, rfl⟩ := List.exists_cons_of_ne_nil spells.chars.1
    refine List.all_eq_false.mpr ⟨c, by simp [written], Bool.not_eq_true _ ▸ ?_⟩
    rcases spells.chars.2 c (.head _) with digit | rfl
    · exact digit_not_blank digit
    · decide
  rw [Owner.evaluate_lifted text valued (lift_number _ k), encoded]
  rfl

theorem evaluate_number {o : Owner} {a : Atom} (takes : o.scripts.machine.Takes a) :
    ∃ b, Echoes a b ∧ (o.evaluate a.text).events = [o.emit .reply (.value (.scalar b)), o.signal] := by
  cases takes with
  | @int n exact =>
    have small : (n.toInt.natAbs : ℚ) < 2 ^ 128 := by
      have few : (n.toInt.natAbs : ℚ) < 2 ^ 53 := by exact_mod_cast Nat.lt_succ_of_le exact
      exact few.trans_le (pow_le_pow_right₀ one_le_two (by decide))
    have written : (Atom.int n).text.toList = _ := written_int n.toInt
    obtain ⟨r, rounds, -, events⟩ := evaluate_spelled o written (spells_written _) small
    exact ⟨_, .int n, events _ (echoes_int exact rounds)⟩
  | @float x negative mag q finite other =>
    obtain ⟨s, v, p, written, spells, inside, rounds, known, rfl⟩ := render_finite finite
    change (Atom.float _).text.toList = _ at written
    have small : v < 2 ^ 128 :=
      (rounds.le_mark inside le_rfl).trans_lt (Layout.narrow_modest.mark_lt_infinity inside)
    obtain ⟨r, first, wide, events⟩ := evaluate_spelled o written spells small
    have again : Layout.narrow.Rounds (Layout.wide.value r) p := by
      rcases known with rfl | rfl
      · have zero := first.unique (Layout.value_zero (l := .wide) ▸ Layout.rounds_value (by decide))
        rwa [zero, Layout.value_zero]
      · refine shortest_again inside ?_ first
        rintro rfl
        cases negative
        · exact other.1 rfl
        · exact other.2 rfl
    obtain ⟨b, encoded, echoes⟩ := @echoes_number negative _ _ inside wide again
    exact ⟨b, echoes, events b encoded⟩
  | @nan x none undeclared named =>
    have written : Lexer.IsName "NaN" :=
      ⟨'N', ['a', 'N'], rfl, by simp [startsName, isAsciiLetter],
        by simp [continuesName, startsName, isAsciiLetter]⟩
    obtain ⟨k, valued, -⟩ := Namespace.runBytes_name written (by decide) undeclared named
    have text : (Atom.float x).text = "NaN" := by
      rw [Atom.text, none]
      rfl
    have nan : (Single.ofDouble .nan).datum = .nan := by decide +kernel
    refine ⟨.float (.ofDouble .nan), .nan none nan, ?_⟩
    rw [text]
    exact Owner.evaluate_lifted (by decide +kernel) valued (lift_number _ k)

/-- A number that is sent to be evaluated comes back: an integer as itself, a float as itself or, when it is
an integer, as one to which it is nearest, and what is no number as no number. Nothing else is sent back,
and nothing is reported. -/
theorem Host.numbers_return {h : Host} {i : Identity} {o : Owner} (live : h.owner? i = some o) {a : Atom}
    (takes : o.scripts.machine.Takes a) :
    let r := h.send i (.ofAtoms "eval" [a])
    r.result = true ∧
      ∃ b, Echoes a b ∧ r.events = [o.emit .reply (.value (.scalar b)), o.signal] := by
  obtain ⟨b, echoes, events⟩ := evaluate_number takes
  rw [send_found live]
  exact ⟨rfl, b, echoes, events⟩

/-- An integer, a tenth and no number, sent to an owner that has just been made. -/
theorem Host.tenth_returns :
    let h := ((opening {} {} {} []).run [.spawn {} {}]).1
    ∃ o, h.owner? (.ofNat 1) = some o ∧
      ∀ a ∈ [.int (-7), .float ⟨0x3DCCCCCD⟩, .float ⟨0xFFC00001⟩],
        let r := h.send (.ofNat 1) (.ofAtoms "eval" [a])
        r.result = true ∧
          ∃ b, Echoes a b ∧ r.events = [o.emit .reply (.value (.scalar b)), o.signal] := by
  intro h
  have live : h.owner? (.ofNat 1) = some { settings := {}, scripts := Namespace.fresh (.ofNat 1) none } := rfl
  obtain ⟨⟨undeclared, named⟩, -⟩ := Namespace.fresh_ready
  refine ⟨_, live, fun a member => numbers_return live ?_⟩
  simp only [List.mem_cons, List.not_mem_nil, or_false] at member
  obtain rfl | rfl | rfl := member
  · exact .int (by decide)
  · have finite : Single.datum ⟨0x3DCCCCCD⟩ = .finite false 13421773 (-27) := by decide +kernel
    exact .float finite (by decide)
  · exact .nan (by decide +kernel) undeclared named

/-- The float 9007199254740992 is written as 9007199000000000, which is in the exact range, so that it comes
back as this integer; and the decimal of one float is rounded to a double that is rounded to the next. -/
theorem Host.numbers_shift :
    let h := ((opening {} {} {} []).run [.spawn {} {}]).1
    let sent (x : Single) := (h.send (.ofNat 1) (.ofAtoms "eval" [.float x])).events
    let replied (a : Atom) : List Event :=
      [.emitted (.ofNat 1) .reply (.value (.scalar a)), .emitted (.ofNat 1) .signal .bang]
    Single.datum ⟨0x5A000000⟩ = .finite false 8388608 30 ∧
      sent ⟨0x5A000000⟩ = replied (.int 9007199000000000) ∧
      sent ⟨0x15AE43FD⟩ = replied (.float ⟨0x15AE43FE⟩) := by
  decide +kernel

end Patchbay
