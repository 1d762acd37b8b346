import Patchbay.Namespace
import Patchbay.Proofs.Script.Opening
import Patchbay.Proofs.Text.Utf8

/-!
What may be evaluated as an expression. The brackets around the source are text like any other, so
they keep statements out only as long as the source closes none of them.
-/
namespace Patchbay

open Script Text

namespace Script

theorem throwNew_throws {α : Type} (kind : ErrorKind) (message : String) (m m' : Machine) (a : α) :
    throwNew kind message m ≠ .ok a m' := by
  intro ok
  obtain ⟨_, _, -, ok⟩ := bind_ok.mp ok
  obtain ⟨_, _, -, ⟨⟩⟩ := bind_ok.mp ok

theorem throwComplaint_throws {α : Type} (c : Complaint) (m m' : Machine) (a : α) :
    throwComplaint c m ≠ .ok a m' := by
  intro ok
  obtain ⟨_, _, -, ok⟩ := bind_ok.mp ok
  cases c with
  | wrong message place =>
    obtain ⟨_, _, -, ⟨⟩⟩ := bind_ok.mp ok
  | tooDeep => exact throwNew_throws _ _ _ _ _ ok

theorem runSource_ok {e : Engine} {s : Source} {strict : Bool} {m m' : Machine} {v : Value}
    (ok : runSource e s strict m = .ok v m') :
    ∃ p, Parser.parse nestingLimit s strict = .ok p ∧ runProgram e p m = .ok v m' := by
  unfold runSource at ok
  cases read : Parser.parse nestingLimit s strict with
  | ok p =>
    rw [read] at ok
    exact ⟨p, rfl, ok⟩
  | error c =>
    rw [read] at ok
    exact absurd ok (throwComplaint_throws _ _ _ _)

theorem declareGlobals_expr (e : Expr) (strict : Bool) :
    declareGlobals ⟨[.expr e], [], strict⟩ = pure () := rfl

end Script

namespace Namespace

def script (source : String) : Source := Source.ofBytes (parenthesized source)

theorem chars_script (source : String) :
    (script source).chars = (('(' :: '\n' :: source.toList ++ ['\n', ')']).map some).toArray := by
  rw [script, parenthesized, Utf8.ofString, Source.ofBytes, Utf8.pieces_encode]
  simp

theorem script_opening (source : String) : (script source).chars[0]? = some (some '(') := by
  simp [chars_script]

theorem script_closing {source : String} (free : ')' ∉ source.toList) {i : Nat}
    (closing : (script source).chars[i]? = some (some ')')) : i + 1 = (script source).size := by
  have size : (script source).size = source.toList.length + 4 := by simp [Source.size, chars_script]
  rw [chars_script, List.getElem?_toArray, List.getElem?_map, List.getElem?_append] at closing
  split_ifs at closing with inside
  · obtain ⟨c, found, ⟨⟩⟩ := Option.map_eq_some_iff.mp closing
    have written := List.mem_of_getElem? found
    simp [free] at written
  · obtain behind | last | past : i = source.toList.length + 2 ∨ i = source.toList.length + 3 ∨
        source.toList.length + 4 ≤ i := by
      simp only [List.length_cons] at inside
      omega
    · simp [behind] at closing
    · rw [size, last]
    · rw [List.getElem?_eq_none (by simp only [List.length_cons, List.length_nil]; omega)] at closing
      cases closing

theorem attempt_ok {α : Type} {n : Namespace} {operation subject : String}
    {body : ExceptT Fault Run α} {a : α} (ok : (n.attempt operation subject body).outcome = .ok a) :
    ∃ m, body.run.run n.machine = .ok (.ok a) m := by
  unfold attempt at ok
  split at ok
  · rename_i settled
    unfold settle at settled
    split at settled <;> cases settled
    cases ok
    exact ⟨_, ‹_›⟩
  · cases ok

theorem runBytes_ok {bytes : Utf8.Bytes} {strict : Bool} {m m' : Machine} {v : Value}
    (ok : (runBytes bytes strict).run.run m = .ok (.ok v) m') :
    runSource mainEngine (Source.ofBytes bytes) strict m = .ok v m' := by
  unfold runBytes at ok
  split at ok
  · cases ok
  · obtain ⟨_, _, ran, ⟨⟩⟩ := bind_ok.mp ok
    exact ran

theorem evaluate_ok {n : Namespace} {source : String} {value : Option Reply}
    (ok : (n.evaluate source).outcome = .ok value) :
    ∃ v m, runSource mainEngine (script source) true n.machine = .ok v m := by
  unfold evaluate at ok
  split at ok
  · cases ok
  · dsimp only at ok
    split at ok
    · rename_i lifted attempted
      obtain ⟨m, ran⟩ := attempt_ok attempted
      obtain ⟨r, u, first, ran⟩ := bind_ok.mp ran
      cases r with
      | error f => cases ran
      | ok v => exact ⟨v, u, runBytes_ok first⟩
    · cases ok

/-- What is evaluated begins with an expression. Unless the source holds a closing bracket, by which
the one in front of it may be closed early, that expression is all there is, and nothing is declared. -/
theorem evaluate_expression {n : Namespace} {source : String} {value : Option Reply}
    (ok : (n.evaluate source).outcome = .ok value) :
    ∃ p e rest, Parser.parse nestingLimit (script source) true = .ok p ∧ p.body = .expr e :: rest ∧
      ((Parser.Encloses (script source) e ∧ p = ⟨[.expr e], [], true⟩ ∧ declareGlobals p = pure ()) ∨
        (Parser.Escapes (script source) ∧ ')' ∈ source.toList)) := by
  obtain ⟨v, m, ran⟩ := evaluate_ok ok
  obtain ⟨p, read, -⟩ := runSource_ok ran
  obtain ⟨e, rest, body, ending⟩ := Parser.parse_opening (script_opening source) read
  refine ⟨p, e, rest, read, body, ?_⟩
  obtain ⟨encloses, rfl⟩ | escapes := ending
  · exact .inl ⟨encloses, rfl, declareGlobals_expr e true⟩
  · refine .inr ⟨escapes, ?_⟩
    by_contra free
    exact Parser.not_escapes (fun i => script_closing free) escapes

theorem arrow_call_enclosed :
    ((fresh (.ofNat 1) none).evaluate "((x) => x + 1)(2)").outcome = .ok (some (.scalar (.int 3))) ∧
      (∃ e, Parser.Encloses (script "((x) => x + 1)(2)") e) ∧
      ∃ p e rest, Parser.parse nestingLimit (script "((x) => x + 1)(2)") true = .ok p ∧
        p.body = .expr e :: rest ∧
        ((Parser.Encloses (script "((x) => x + 1)(2)") e ∧ p = ⟨[.expr e], [], true⟩ ∧
            declareGlobals p = pure ()) ∨
          (Parser.Escapes (script "((x) => x + 1)(2)") ∧ ')' ∈ "((x) => x + 1)(2)".toList)) := by
  have ok : ((fresh (.ofNat 1) none).evaluate "((x) => x + 1)(2)").outcome =
      .ok (some (.scalar (.int 3))) := by
    have some : ((fresh (.ofNat 1) none).evaluate "((x) => x + 1)(2)").outcome.toOption =
        some (some (.scalar (.int 3))) := by decide +kernel
    cases outcome : ((fresh (.ofNat 1) none).evaluate "((x) => x + 1)(2)").outcome with
    | ok value => rw [outcome] at some; cases some; rfl
    | error d => rw [outcome] at some; cases some
  have closed : (match Parser.parenthesized (Parser.grammar 20)
        (Parser.opening (script "((x) => x + 1)(2)")) with
      | .ok _ t => t.lastEnd == (script "((x) => x + 1)(2)").size
      | .error .. => false) = true := by decide +kernel
  refine ⟨ok, ?_, evaluate_expression ok⟩
  split at closed
  · exact ⟨_, 20, _, ‹_›, beq_iff_eq.mp closed⟩
  · cases closed

/-- A source that closes the bracket in front of it need not be an expression, and may declare a
variable. -/
theorem brackets_escaped :
    (Parser.parse nestingLimit (Source.ofBytes (Utf8.ofString "1)+(2")) true).toOption.isNone ∧
      ((fresh (.ofNat 1) none).evaluate "1)+(2").outcome.toOption =
        some (some (.scalar (.int 3))) ∧
      (Parser.parse nestingLimit (script "1);var y = 2;(3") true).toOption.map Program.vars =
        some [CodeUnits.ofString "y"] := by
  decide +kernel

end Namespace

end Patchbay
