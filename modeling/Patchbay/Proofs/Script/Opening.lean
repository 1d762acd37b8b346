import Patchbay.Proofs.Script.Bracket
import Patchbay.Proofs.Script.Textual

/-!
Scripts that begin with an opening bracket. Such a script begins with an expression, and while that is
read nothing is declared. If the bracket is closed by the last character of the script, nothing
follows it, so the script is that one expression.
-/
namespace Patchbay.Script

theorem bind_ok {ε σ α β : Type} {p : EStateM ε σ α} {f : α → EStateM ε σ β} {s t : σ} {b : β} :
    (p >>= f) s = .ok b t ↔ ∃ a u, p s = .ok a u ∧ f a u = .ok b t := by
  change EStateM.bind p f s = _ ↔ _
  unfold EStateM.bind
  cases p s <;> simp

namespace Parser

open Std.Do

set_option mvcgen.warning false

theorem bind_of_ok {α β : Type} {p : Parser α} {f : α → Parser β} {s u : ParserState} {a : α}
    (ok : p s = .ok a u) : (p >>= f) s = f a u := by
  change EStateM.bind p f s = _
  simp [EStateM.bind, ok]

theorem current_bind {β : Type} (f : Token → Parser β) (s : ParserState) :
    (current >>= f) s = f s.token s := rfl

theorem isMark_bind {β : Type} (text : String) (f : Bool → Parser β) (s : ParserState) :
    (isMark text >>= f) s = f (s.token.isMark text) s := rfl

theorem get_bind {β : Type} (f : ParserState → Parser β) (s : ParserState) :
    (get >>= f) s = f s s := rfl

structure Undeclared (s : ParserState) : Prop where
  vars : s.body.vars = []
  strict : s.strict = true

theorem stable_undeclared : Stable Undeclared where
  token before _ := ⟨before.vars, before.strict⟩
  template before _ := ⟨before.vars, before.strict⟩
  regexp before _ := ⟨before.vars, before.strict⟩
  privates before _ := ⟨before.vars, before.strict⟩
  body before fewer := ⟨List.eq_nil_of_subset_nil (before.vars ▸ fewer), before.strict⟩
  returned before after := ⟨before.vars, after.strict⟩
  strict before := ⟨before.vars, rfl⟩
  restored before after := ⟨after.vars, before.strict⟩

theorem keeps_nothing {α : Type} (p : Parser α) : Keeps (fun _ => True) p :=
  Keeps.of_run fun _ _ _ _ _ => trivial

theorem textual_nothing : Textual fun _ : ParserState => True :=
  have : Stable fun _ : ParserState => True := ⟨fun _ _ => trivial, fun _ _ => trivial,
    fun _ _ => trivial, fun _ _ => trivial, fun _ _ => trivial, fun _ _ => trivial, fun _ => trivial,
    fun _ _ => trivial⟩
  ⟨fun _ => trivial⟩

theorem respectsAll_nothing (g : Grammar) : g.RespectsAll fun _ => True :=
  have : g.Respects fun _ : ParserState => True := ⟨fun _ => keeps_nothing _,
    fun _ => keeps_nothing _, fun _ => keeps_nothing _, keeps_nothing _, fun _ _ => keeps_nothing _,
    fun _ _ _ _ _ => keeps_nothing _⟩
  ⟨fun _ => keeps_nothing _⟩

/-- A function declares its variables for itself: nothing is known of its parts, but behind its body
stands what stood before it. -/
theorem function_undeclared (g : Grammar) (start : Nat) (name : String) (kind : FunctionKind)
    (isAsync isGenerator : Bool) :
    Keeps Undeclared (function g start name kind isAsync isGenerator) := by
  have brace : Keeps Undeclared (expectMark "\x7d") :=
    have := stable_undeclared
    expectMark_keeps _
  have text : Keeps Undeclared (sourceFrom start) :=
    have := stable_undeclared
    sourceFrom_keeps _
  have mark := keeps_nothing (expectMark "=>")
  have := textual_nothing
  have := respectsAll_nothing g
  unfold function
  mvcgen [brace, text, mark, -expectMark_keeps, -sourceFrom_keeps]
  all_goals
    have before := ‹Undeclared _›
    exact ⟨before.vars, before.strict⟩

theorem grammar_undeclared (depth : Nat) : (grammar depth).Respects Undeclared := by
  have := stable_undeclared
  induction depth with
  | zero =>
    exact ⟨fun _ => tooDeep_keeps, fun _ => tooDeep_keeps, fun _ => tooDeep_keeps, tooDeep_keeps,
      fun _ _ => tooDeep_keeps, fun _ _ _ _ _ => tooDeep_keeps⟩
  | succ depth ih =>
    exact ⟨expression_keeps, assignment_keeps, unary_keeps, access_keeps, fun kind => pattern_keeps kind,
      function_undeclared _⟩

theorem loop_stops {α β : Type} {step : α → Parser (α ⊕ β)} {s : ParserState} {a : α} {b : β}
    (stops : step a s = .ok (.inr b) s) : loop a step s = .ok b s := by
  unfold loop
  rw [get_bind, iterate, bind_of_ok stops]
  rfl

section

variable {s : ParserState} (finish : s.token.kind = .finish)

include finish

theorem isMark_finish (text : String) : isMark text s = .ok false s := by
  change EStateM.Result.ok (s.token.isMark text) s = _
  rw [Token.isMark, finish]

theorem takeMark_finish (text : String) : takeMark text s = .ok false s := by
  unfold takeMark
  rw [bind_of_ok (isMark_finish finish text)]
  rfl

theorem expectEnd_finish : expectEnd s = .ok () s := by
  have unmarked : s.token.isMark ";" = false := by rw [Token.isMark, finish]
  have ends : s.token.isFinish = true := beq_iff_eq.mpr finish
  unfold expectEnd
  simp only [current_bind, unmarked, ends]
  rfl

theorem accesses_finish (g : Grammar) (calls : Bool) (place : Place) (e : Expr) :
    accesses g calls place e s = .ok (e, false) s := by
  unfold accesses
  apply loop_stops
  dsimp only
  simp only [current_bind, finish]
  rfl

end

/-- A parser goes on where another one stopped, unless that was the end of the script. -/
def Extends (p q : Parser Expr) (s : ParserState) : Prop :=
  ∀ e t, p s = .ok e t → ∃ f u, q s = .ok f u ∧ (u.token.kind = .finish → e = f ∧ t = u)

theorem Extends.trans {p q r : Parser Expr} {s : ParserState} (outer : Extends p q s)
    (inner : Extends q r s) : Extends p r s := by
  intro e t ok
  obtain ⟨f, u, read, still⟩ := outer e t ok
  obtain ⟨f', u', read', still'⟩ := inner f u read
  refine ⟨f', u', read', ?_⟩
  intro finish
  obtain ⟨rfl, rfl⟩ := still' finish
  exact still finish

/-- What does nothing at the end of a script may follow any parser. -/
theorem extends_bind {q : Parser Expr} {k : Expr → Parser Expr}
    (still : ∀ e u, u.token.kind = .finish → k e u = .ok e u) (s : ParserState) :
    Extends (q >>= k) q s := by
  intro e t ok
  obtain ⟨f, u, read, ok⟩ := bind_ok.mp ok
  refine ⟨f, u, read, ?_⟩
  intro finish
  rw [still f u finish] at ok
  cases ok
  exact ⟨rfl, rfl⟩

section

variable (g : Grammar) {s : ParserState}

theorem access_extends (bracket : s.token.kind = .mark "(") : Extends (access g) (operand g) s := by
  intro e t ok
  unfold access at ok
  simp only [current_bind, Token.isWord, bracket, Bool.false_eq_true, ↓reduceIte] at ok
  refine extends_bind ?_ s e t ok
  intro f u finish
  rw [bind_of_ok (accesses_finish finish ..)]
  rfl

theorem update_extends (s : ParserState) : Extends (update g) (access g) s := by
  unfold update
  apply extends_bind
  intro e u finish
  simp only [current_bind, Token.isMark, finish, Bool.or_self, Bool.and_false, Bool.false_eq_true,
    ↓reduceIte]
  rfl

theorem power_finish {p : Power} (e : Expr) {u : ParserState} (finish : u.token.kind = .finish) :
    power g p e u = .ok e u := by
  unfold power
  cases p with
  | taken => exact bind_of_ok (takeMark_finish finish _)
  | refused => exact bind_of_ok (isMark_finish finish _)
  | left => rfl

theorem unary_extends (p : Power) (bracket : s.token.kind = .mark "(") :
    Extends (unary g p) (update g) s := by
  intro e t ok
  unfold unary at ok
  simp only [current_bind, get_bind, unaryOp?, Token.isMark, Token.isWord, bracket, String.reduceBEq,
    Bool.or_self, Bool.false_and, Bool.false_eq_true, ↓reduceIte] at ok
  exact extends_bind (fun f u finish => power_finish g f finish) s e t ok

theorem privateTest?_known (known : ∀ text, s.token.kind ≠ .privateName text) (inAllowed : Bool)
    (ops : List (String × BinaryOp)) : privateTest? inAllowed ops s = .ok none s := by
  unfold privateTest?
  cases kind : s.token.kind with
  | privateName text => exact absurd kind (known text)
  | _ =>
    simp only [current_bind, kind]
    rfl

theorem binary_extends (bracket : s.token.kind = .mark "(") (inAllowed : Bool)
    (ops : List (List (String × BinaryOp))) :
    Extends (binary g inAllowed ops) (unary g .taken) s := by
  induction ops with
  | nil => exact fun e t ok => ⟨e, t, ok, fun _ => ⟨rfl, rfl⟩⟩
  | cons ops tighter ih =>
    refine Extends.trans ?_ ih
    intro e t ok
    unfold binary at ok
    rw [bind_of_ok (privateTest?_known (by simp [bracket]) ..)] at ok
    refine extends_bind ?_ s e t ok
    intro f u finish
    apply loop_stops
    simp only [current_bind, binaryOp?, finish]
    rfl

theorem joined_extends (mark : String) (op : LogicalOp) (operand : Parser Expr) (s : ParserState) :
    Extends (joined mark op operand) operand s := by
  unfold joined
  apply extends_bind
  intro e u finish
  apply loop_stops
  rw [bind_of_ok (takeMark_finish finish _)]
  rfl

theorem coalesce_extends (inAllowed : Bool) (s : ParserState) :
    Extends (coalesce g inAllowed) (disjunction g inAllowed) s := by
  unfold coalesce
  apply extends_bind
  intro e u finish
  apply loop_stops
  rw [bind_of_ok (takeMark_finish finish _)]
  rfl

theorem conditional_extends (inAllowed : Bool) (s : ParserState) :
    Extends (conditional g inAllowed) (coalesce g inAllowed) s := by
  unfold conditional
  apply extends_bind
  intro e u finish
  rw [bind_of_ok (takeMark_finish finish _)]
  rfl

theorem conditional_operand (bracket : s.token.kind = .mark "(") (inAllowed : Bool) :
    Extends (conditional g inAllowed) (operand g) s := by
  have choice : Extends (conditional g inAllowed) (disjunction g inAllowed) s :=
    (conditional_extends g inAllowed s).trans (coalesce_extends g inAllowed s)
  have operators : Extends (disjunction g inAllowed) (unary g .taken) s :=
    (joined_extends "||" .or _ s).trans
      ((joined_extends "&&" .and _ s).trans (binary_extends g bracket inAllowed binaryOps))
  have signs : Extends (unary g .taken) (operand g) s :=
    ((unary_extends g .taken bracket).trans (update_extends g s)).trans (access_extends g bracket)
  exact choice.trans (operators.trans signs)

theorem assignTo_finish (inAllowed : Bool) (e : Expr) {u : ParserState} (finish : u.token.kind = .finish) :
    assignTo g inAllowed e u = .ok e u := by
  unfold assignTo
  simp only [current_bind, finish]
  rfl

theorem arrow?_bracket (bracket : s.token.kind = .mark "(") {b : Bool} (follow : paramsFollow s = .ok b s) :
    arrow? s = .ok (if b then some false else none) s := by
  unfold arrow?
  simp only [get_bind, Token.isMark, bracket, BEq.rfl, if_true]
  exact bind_of_ok follow

theorem assignment_opening (bracket : s.token.kind = .mark "(") (inAllowed : Bool) {e : Expr}
    {t : ParserState} (ok : assignment g inAllowed s = .ok e t) :
    arrow g false s.token.start s = .ok e t ∨
      ∃ f u, operand g s = .ok f u ∧ (u.token.kind = .finish → e = f ∧ t = u) := by
  obtain ⟨isArrow, follow⟩ : ∃ b, paramsFollow s = .ok b s := ⟨_, rfl⟩
  unfold assignment at ok
  simp only [current_bind, Token.isWord, bracket, Bool.false_and, Bool.false_eq_true, ↓reduceIte] at ok
  rw [get_bind, bind_of_ok (arrow?_bracket bracket follow)] at ok
  cases isArrow with
  | true => exact .inl ok
  | false =>
    obtain ⟨b, target⟩ : ∃ b, bracketsBefore "=" s = .ok b s := ⟨_, rfl⟩
    simp only [Bool.false_eq_true, if_false] at ok
    rw [bind_of_ok target] at ok
    simp only [Token.isMark, bracket, String.reduceBEq, Bool.or_self, Bool.false_and, Bool.false_eq_true,
      if_false] at ok
    refine .inr ?_
    have assigns : Extends (conditional g inAllowed >>= assignTo g inAllowed) (conditional g inAllowed) s :=
      extends_bind (fun f u finish => assignTo_finish g inAllowed f finish) s
    exact (assigns.trans (conditional_operand g bracket inAllowed)) e t ok

theorem expression_extends (inAllowed : Bool) (s : ParserState) :
    Extends (expression g inAllowed) (g.assignment inAllowed) s := by
  unfold expression
  apply extends_bind
  intro e u finish
  apply loop_stops
  rw [bind_of_ok (takeMark_finish finish _)]
  rfl

end

theorem advance_ok {s t : ParserState} {a : Unit} (ok : advance s = .ok a t) :
    ∃ next, Lexer.token s.source s.strict s.token.stop = .ok next ∧
      t = { s with token := next, lastEnd := s.token.stop.index } := by
  unfold advance at ok
  rw [get_bind] at ok
  cases read : Lexer.token s.source s.strict s.token.stop with
  | error e =>
    rw [read] at ok
    cases ok
  | ok next =>
    rw [read] at ok
    cases ok
    exact ⟨next, rfl, rfl⟩

theorem expectMark_ok {text : String} {s t : ParserState} {a : Unit}
    (ok : expectMark text s = .ok a t) : s.token.kind = .mark text ∧ advance s = .ok a t := by
  unfold expectMark at ok
  rw [isMark_bind] at ok
  cases is : s.token.isMark text with
  | false =>
    rw [is] at ok
    cases ok
  | true =>
    rw [is] at ok
    refine ⟨?_, ok⟩
    unfold Token.isMark at is
    split at is
    · rename_i kind
      rw [kind, beq_iff_eq.mp is]
    · cases is

theorem operand_bracket (g : Grammar) {s : ParserState} (bracket : s.token.kind = .mark "(") :
    operand g s = parenthesized g s := by
  unfold operand
  simp only [current_bind, bracket]

def opening (src : Source) : ParserState :=
  { source := src, strict := true
    token := ⟨.mark "(", 0, ⟨1, 0⟩, true, { index := 1 }⟩ }

/-- The script is one expression between its first and its last character. -/
def Encloses (src : Source) (e : Expr) : Prop :=
  ∃ depth t, parenthesized (grammar depth) (opening src) = .ok e t ∧ t.lastEnd = src.size

/-- The bracket that opens the script is closed before its end, behind an expression or behind the
parameters of an arrow function. -/
inductive Escapes (src : Source) : Prop
  | expression {depth : Nat} {e : Expr} {t : ParserState}
      (reads : parenthesized (grammar depth) (opening src) = .ok e t) (early : t.lastEnd ≠ src.size)
  | arrow {depth : Nat} {f : Expr} {t : ParserState}
      (reads : arrow (grammar depth) false 0 (opening src) = .ok f t)

theorem textual_source (src : Source) : Textual fun s => s.source = src :=
  have : Stable fun s : ParserState => s.source = src := ⟨fun same _ => same, fun same _ => same,
    fun same _ => same, fun same _ => same, fun same _ => same, fun _ same => same, fun same => same,
    fun _ same => same⟩
  ⟨fun same => same⟩

theorem advance_last {s t : ParserState} (ok : advance s = .ok () t)
    (last : s.source.size ≤ t.lastEnd) : t.token.kind = .finish := by
  obtain ⟨next, read, rfl⟩ := advance_ok ok
  obtain ⟨_, again, finish⟩ := Lexer.token_finish s.strict last
  rw [read] at again
  cases again
  exact finish

theorem parenthesized_ok {g : Grammar} {s t : ParserState} {e : Expr}
    (reads : parenthesized g s = .ok e t) :
    ∃ u v, expectMark "(" s = .ok () u ∧ g.expression true u = .ok e v ∧
      expectMark ")" v = .ok () t := by
  obtain ⟨_, u, opened, reads⟩ := bind_ok.mp reads
  obtain ⟨_, v, inner, reads⟩ := bind_ok.mp reads
  obtain ⟨_, _, closed, ⟨⟩⟩ := bind_ok.mp reads
  exact ⟨u, v, opened, inner, closed⟩

theorem parenthesized_last {depth : Nat} {src : Source} {e : Expr} {t : ParserState}
    (reads : parenthesized (grammar depth) (opening src) = .ok e t) (last : t.lastEnd = src.size) :
    t.token.kind = .finish := by
  have := textual_source src
  have respects := grammar_respectsAll (I := fun s => s.source = src) depth
  obtain ⟨u, v, opened, inner, closed⟩ := parenthesized_ok reads
  have source : v.source = src :=
    (respects.expression true).run
      ((expectMark_keeps "(").run (I := fun s => s.source = src) rfl opened) inner
  exact advance_last (expectMark_ok closed).2 (by rw [source]; exact Nat.le_of_eq last.symm)

/-- Each level of nesting may be too deep; else an arrow function or the bracket is read two levels down. -/
theorem expression_opening {depth : Nat} {src : Source} {e : Expr} {t : ParserState}
    (reads : (grammar depth).expression true (opening src) = .ok e t) :
    ∃ level f u, (arrow (grammar level) false 0 (opening src) = .ok f u ∨
      parenthesized (grammar level) (opening src) = .ok f u) ∧ (u.token.kind = .finish → e = f ∧ t = u) := by
  cases depth with
  | zero => cases reads
  | succ depth =>
    obtain ⟨f, u, inner, still⟩ := expression_extends (grammar depth) true (opening src) e t reads
    cases depth with
    | zero => cases inner
    | succ depth =>
      obtain arrow | ⟨f', u', read, same⟩ := assignment_opening (grammar depth) rfl true inner
      · exact ⟨depth, f, u, .inl arrow, still⟩
      · rw [operand_bracket (grammar depth) rfl] at read
        refine ⟨depth, f', u', .inr read, ?_⟩
        intro finish
        obtain ⟨rfl, rfl⟩ := same finish
        exact still finish

/-- The first statement of a script that begins with a bracket. -/
theorem statement_opening {depth : Nat} {src : Source} {stmt : Stmt} {t : ParserState}
    (reads : (grammar depth).statement .all (opening src) = .ok stmt t) :
    ∃ e, stmt = .expr e ∧
      ((Encloses src e ∧ t.token.kind = .finish ∧ Undeclared t) ∨ Escapes src) := by
  cases depth with
  | zero => cases reads
  | succ depth =>
    have respects := grammar_undeclared depth
    -- No keyword begins with a bracket, and a label is a word.
    change expressionStatement (grammar depth) (opening src) = .ok stmt t at reads
    obtain ⟨e, u, inner, reads⟩ := bind_ok.mp reads
    obtain ⟨_, v, ended, ⟨⟩⟩ := bind_ok.mp reads
    refine ⟨e, rfl, ?_⟩
    obtain ⟨level, f, w, read, still⟩ := expression_opening inner
    obtain isArrow | plain := read
    · exact .inr (.arrow isArrow)
    · by_cases last : w.lastEnd = src.size
      · have finish := parenthesized_last plain last
        obtain ⟨rfl, rfl⟩ := still finish
        rw [expectEnd_finish finish] at ended
        cases ended
        exact .inl ⟨⟨level, _, plain, last⟩, finish, (respects.expression true).run ⟨rfl, rfl⟩ inner⟩
      · exact .inr (.expression plain last)

theorem readDirectives_opening (src : Source) :
    readDirectives (opening src) = .ok false (opening src) := by
  have none : strictDirective (opening src) (opening src).source.size (opening src).token = false := by
    unfold strictDirective
    split <;> rfl
  unfold readDirectives
  rw [get_bind]
  simp only [none, Bool.false_eq_true, if_false]
  rfl

theorem iterate_grows {α : Type} {step : List α → Parser (List α ⊕ List α)}
    (grows : ∀ l s r t, step l s = .ok r t → ∃ more, r.elim id id = more ++ l) {fuel : Nat}
    {l all : List α} {s t : ParserState} (ok : iterate step fuel l s = .ok all t) :
    ∃ more, all = more ++ l := by
  induction fuel generalizing l s with
  | zero => cases ok
  | succ fuel ih =>
    obtain ⟨r, u, stepped, ok⟩ := bind_ok.mp ok
    obtain ⟨more, grown⟩ := grows l s r u stepped
    cases r with
    | inr b =>
      cases ok
      exact ⟨more, grown⟩
    | inl a =>
      obtain ⟨others, rfl⟩ := ih ok
      exact ⟨others ++ more, by rw [List.append_assoc]; exact congrArg (others ++ ·) grown⟩

def programStep (g : Grammar) (body : List Stmt) : Parser (List Stmt ⊕ List Stmt) := do
  if (← current).isFinish then return .inr body else return .inl ((← g.statement .all) :: body)

theorem programStep_ok {g : Grammar} {body : List Stmt} {r : List Stmt ⊕ List Stmt}
    {s t : ParserState} (ok : programStep g body s = .ok r t) :
    (s.token.kind = .finish ∧ r = .inr body ∧ t = s) ∨
      (s.token.kind ≠ .finish ∧ ∃ stmt, g.statement .all s = .ok stmt t ∧ r = .inl (stmt :: body)) := by
  unfold programStep at ok
  rw [current_bind] at ok
  have is : s.token.isFinish = true ↔ s.token.kind = .finish := beq_iff_eq
  by_cases finish : s.token.kind = .finish
  · rw [if_pos (is.mpr finish)] at ok
    cases ok
    exact .inl ⟨finish, rfl, rfl⟩
  · rw [if_neg (mt is.mp finish)] at ok
    obtain ⟨stmt, u, reads, ⟨⟩⟩ := bind_ok.mp ok
    exact .inr ⟨finish, stmt, reads, rfl⟩

theorem programStep_grows (g : Grammar) (body : List Stmt) (s : ParserState)
    (r : List Stmt ⊕ List Stmt) (t : ParserState) (ok : programStep g body s = .ok r t) :
    ∃ more, r.elim id id = more ++ body := by
  obtain ⟨-, rfl, -⟩ | ⟨-, stmt, -, rfl⟩ := programStep_ok ok
  · exact ⟨[], rfl⟩
  · exact ⟨[stmt], rfl⟩

theorem program_ok {g : Grammar} {s t : ParserState} {p : Program} (ok : program g s = .ok p t) :
    ∃ strict u all, readDirectives s = .ok strict u ∧
      iterate (programStep g) (u.source.size + 1 + 1) [] u = .ok all t ∧
      p = ⟨all.reverse, t.body.vars.reverse, t.strict⟩ := by
  obtain ⟨strict, u, directives, ok⟩ := bind_ok.mp ok
  obtain ⟨all, v, looped, ok⟩ := bind_ok.mp ok
  rw [get_bind] at ok
  cases undeclared : v.privates.getLast? with
  | some text =>
    rw [undeclared] at ok
    cases ok
  | none =>
    rw [undeclared] at ok
    cases ok
    exact ⟨strict, u, all, directives, looped, rfl⟩

theorem program_opening {depth : Nat} {src : Source} {p : Program} {t : ParserState}
    (ok : program (grammar depth) (opening src) = .ok p t) :
    ∃ e rest, p.body = .expr e :: rest ∧
      ((Encloses src e ∧ p = ⟨[.expr e], [], true⟩) ∨ Escapes src) := by
  obtain ⟨_, _, all, directives, looped, rfl⟩ := program_ok ok
  rw [readDirectives_opening] at directives
  cases directives
  obtain ⟨r, v, stepped, looped⟩ := bind_ok.mp looped
  obtain ⟨finish, -⟩ | ⟨-, stmt, reads, rfl⟩ := programStep_ok stepped
  · cases finish
  obtain ⟨e, rfl, ending⟩ := statement_opening reads
  obtain ⟨more, rfl⟩ := iterate_grows (programStep_grows _) looped
  refine ⟨e, more.reverse, by simp, ?_⟩
  obtain ⟨encloses, finish, undeclared⟩ | escapes := ending
  · -- At the end of the script the next round adds nothing.
    obtain ⟨_, w, next, stopped⟩ := bind_ok.mp looped
    obtain ⟨-, rfl, rfl⟩ | ⟨goes, -⟩ := programStep_ok next
    · injection stopped with only same
      rw [← only, ← same, undeclared.vars, undeclared.strict]
      exact .inl ⟨encloses, rfl⟩
    · exact absurd finish goes
  · exact .inr escapes

theorem start_opening {src : Source} (bracket : src.chars[0]? = some (some '(')) : start src = {} := by
  have code : src.code 0 = 40 := by
    rw [Source.code, bracket]
    rfl
  rw [start, code]
  rfl

/-- A strict script that begins with a bracket is one expression and declares nothing, or the bracket is
closed before the end of the script. -/
theorem parse_opening {depth : Nat} {src : Source} {p : Program}
    (bracket : src.chars[0]? = some (some '(')) (ok : parse depth src true = .ok p) :
    ∃ e rest, p.body = .expr e :: rest ∧
      ((Encloses src e ∧ p = ⟨[.expr e], [], true⟩) ∨ Escapes src) := by
  unfold parse at ok
  rw [start_opening bracket, Lexer.token_opening bracket true] at ok
  dsimp only [bind, Except.bind] at ok
  split at ok
  · rename_i ran
    cases ok
    exact program_opening ran
  · cases ok

/-- The source is the given one, and a closing bracket among the tokens ends it. -/
structure ClosesLast (src : Source) (s : ParserState) : Prop where
  source : s.source = src
  closing : s.token.kind = .mark ")" → s.token.stop.index = src.size

theorem textual_closesLast {src : Source}
    (only : ∀ i, src.chars[i]? = some (some ')') → i + 1 = src.size) : Textual (ClosesLast src) :=
  have : Stable (ClosesLast src) := {
    token := fun {s t} before read => ⟨before.source, fun closing => by
      obtain ⟨i, found, stop⟩ := Lexer.token_closing read closing
      rw [before.source] at found
      exact stop.trans (only i found)⟩
    template := fun before read => ⟨before.source, fun closing =>
      absurd closing (Lexer.template_kind read _)⟩
    regexp := fun before _ => ⟨before.source, nofun⟩
    privates := fun before _ => ⟨before.source, before.closing⟩
    body := fun before _ => ⟨before.source, before.closing⟩
    returned := fun _ after => ⟨after.source, after.closing⟩
    strict := fun before => ⟨before.source, before.closing⟩
    restored := fun _ after => ⟨after.source, after.closing⟩ }
  ⟨fun before => ⟨before.source, before.closing⟩⟩

theorem ClosesLast.expectMark {src : Source} {s t : ParserState} {a : Unit} (before : ClosesLast src s)
    (ok : expectMark ")" s = .ok a t) : t.lastEnd = src.size ∧ t.token.kind = .finish := by
  obtain ⟨closing, moved⟩ := expectMark_ok ok
  obtain ⟨_, _, rfl⟩ := advance_ok moved
  have last := before.closing closing
  refine ⟨last, advance_last moved ?_⟩
  rw [before.source]
  exact Nat.le_of_eq last.symm

theorem parameters_ok {g : Grammar} {src : Source} {s t : ParserState} {params : List Pattern}
    [Textual (ClosesLast src)] [g.RespectsAll (ClosesLast src)] (before : ClosesLast src s)
    (ok : parameters g s = .ok params t) : t.token.kind = .finish := by
  unfold parameters at ok
  obtain ⟨_, u, opened, ok⟩ := bind_ok.mp ok
  obtain ⟨all, v, looped, ok⟩ := bind_ok.mp ok
  obtain ⟨_, w, closed, ⟨⟩⟩ := bind_ok.mp ok
  have opened := (expectMark_keeps "(").run before opened
  have looped : ClosesLast src v := by
    refine Keeps.run ?_ opened looped
    mvcgen
  exact (looped.expectMark closed).2

theorem function_arrow {g : Grammar} {start : Nat} {name : String} {isAsync isGenerator : Bool}
    {s t : ParserState} {f : Function} (bracket : s.token.kind = .mark "(")
    (ok : function g start name .arrow isAsync isGenerator s = .ok f t) :
    ∃ s' params u, s'.source = s.source ∧ s'.token = s.token ∧ parameters g s' = .ok params u ∧
      u.token.kind = .mark "=>" := by
  unfold function at ok
  rw [get_bind] at ok
  obtain ⟨_, s', ⟨⟩, ok⟩ := bind_ok.mp ok
  obtain ⟨params, u, inner, ok⟩ := bind_ok.mp ok
  obtain ⟨_, _, ⟨⟩, ok⟩ := bind_ok.mp ok
  obtain ⟨_, v, ⟨⟩, ok⟩ := bind_ok.mp ok
  obtain ⟨_, w, arrow, -⟩ := bind_ok.mp ok
  unfold parametersOf at inner
  rw [if_neg nofun, isMark_bind, if_neg (by simp [Token.isMark, bracket])] at inner
  refine ⟨_, params, u, ?_, ?_, inner, (expectMark_ok arrow).1⟩ <;> rfl

theorem not_escapes {src : Source} (only : ∀ i, src.chars[i]? = some (some ')') → i + 1 = src.size) :
    ¬ Escapes src := by
  have := textual_closesLast only
  have first : ClosesLast src (opening src) := ⟨rfl, by simp [opening]⟩
  intro escapes
  cases escapes with
  | @expression depth e t reads early =>
    have respects := grammar_respectsAll (I := ClosesLast src) depth
    obtain ⟨u, v, opened, inner, closed⟩ := parenthesized_ok reads
    have opened := (expectMark_keeps "(").run first opened
    exact early (((respects.expression true).run opened inner).expectMark closed).1
  | @arrow depth f t reads =>
    cases depth with
    | zero => cases reads
    | succ depth =>
      have respects := grammar_respectsAll (I := ClosesLast src) depth
      obtain ⟨fn, _, reads, -⟩ := bind_ok.mp reads
      obtain ⟨s, params, u, source, token, inner, arrow⟩ :=
        function_arrow (g := grammar depth) rfl reads
      -- The parameters take the bracket at the end, so no arrow can follow.
      have finish := parameters_ok ⟨source, by simp [token, opening]⟩ inner
      rw [finish] at arrow
      cases arrow

end Parser

end Patchbay.Script
