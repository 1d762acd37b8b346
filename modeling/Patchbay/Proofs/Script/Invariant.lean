import Patchbay.Script.Parser.Statement
import Mathlib.Tactic.Common

/-!
Invariants of the parser. Expressions are read by taking tokens and by noting the use of `arguments`;
what a class or a function changes for its body it puts back. So an invariant that these moves keep is
kept by the whole grammar of expressions, whatever the statements within functions do, as long as a
function as a whole keeps it. A parser that fails keeps everything.
-/
namespace Patchbay.Script.Parser

open Std.Do

set_option mvcgen.warning false
-- The instances tell `mvcgen` which invariant is meant, also where a proof does not use them.
set_option linter.unusedSectionVars false

abbrev Keeps {α : Type} (I : ParserState → Prop) (p : Parser α) : Prop :=
  ⦃fun s => ⌜I s⌝⦄ p ⦃⇓? _ s => ⌜I s⌝⦄

theorem Keeps.run {α : Type} {I : ParserState → Prop} {p : Parser α} (keeps : Keeps I p)
    {s t : ParserState} {a : α} (before : I s) (ok : p s = .ok a t) : I t := by
  have after := keeps s before
  change p.run s = _ at ok
  simpa [wp, PredTrans.apply, ok] using after

theorem Keeps.of_run {α : Type} {I : ParserState → Prop} {p : Parser α}
    (run : ∀ s a t, I s → p s = .ok a t → I t) : Keeps I p := by
  intro s before
  cases ran : p.run s with
  | ok a t => simpa [wp, PredTrans.apply, ran] using run s a t before ran
  | error e t => simp [wp, PredTrans.apply, ran]

/-- An invariant that the moves of the expression grammar keep. -/
class Stable (I : outParam (ParserState → Prop)) : Prop where
  token : ∀ {s t}, I s → Lexer.token s.source s.strict s.token.stop = .ok t →
    I { s with token := t, lastEnd := s.token.stop.index }
  template : ∀ {s t}, I s → Lexer.template s.source s.token.stop false s.token.stop = .ok t →
    I { s with token := t, lastEnd := s.token.stop.index }
  regexp : ∀ {s}, I s → ∀ stop,
    I { s with token := { s.token with kind := .string default, stop := stop } }
  privates : ∀ {s}, I s → ∀ names, I { s with privates := names }
  /-- Whatever changes of the function under way, it gets no further variables. -/
  body : ∀ {s} {b : Body}, I s → b.vars ⊆ s.body.vars → I { s with body := b }
  returned : ∀ {s t}, I s → I t → I { t with body := s.body }
  strict : ∀ {s}, I s → I { s with strict := true }
  restored : ∀ {s t}, I s → I t → I { t with strict := s.strict }

/-- An invariant that declarations of a kind keep; what declares nothing has no kind. -/
class Declares (I : outParam (ParserState → Prop)) (kind : Option DeclarationKind) : Prop where
  declares : ∀ k text, kind = some k → Keeps I (declare k text)

instance {I : ParserState → Prop} [Stable I] : Declares I none := ⟨nofun⟩

class Grammar.Respects (I : outParam (ParserState → Prop)) (g : Grammar) : Prop where
  expression : ∀ inAllowed, Keeps I (g.expression inAllowed)
  assignment : ∀ inAllowed, Keeps I (g.assignment inAllowed)
  unary : ∀ p, Keeps I (g.unary p)
  access : Keeps I g.access
  pattern : ∀ kind [Declares I kind], Keeps I (g.pattern kind)
  function : ∀ start name kind isAsync isGenerator,
    Keeps I (g.function start name kind isAsync isGenerator)

attribute [spec] Grammar.Respects.expression Grammar.Respects.assignment Grammar.Respects.unary
  Grammar.Respects.access Grammar.Respects.pattern Grammar.Respects.function

section

variable {I : ParserState → Prop} [Stable I]

@[spec] theorem current_keeps : Keeps I current := by mvcgen [current]

@[spec] theorem isMark_keeps (text : String) : Keeps I (isMark text) := by mvcgen [isMark]

@[spec] theorem isWord_keeps (text : String) : Keeps I (isWord text) := by mvcgen [isWord]

@[spec] theorem following_keeps : Keeps I following := by mvcgen [following]

@[spec] theorem complainAt_keeps {α : Type} (place : Place) (message : String) :
    Keeps I (complainAt place message : Parser α) := by
  mvcgen [complainAt]

@[spec] theorem complain_keeps {α : Type} (message : String) : Keeps I (complain message : Parser α) := by
  mvcgen [complain]

@[spec] theorem unexpected_keeps {α : Type} : Keeps I (unexpected : Parser α) := by mvcgen [unexpected]

@[spec] theorem complainReserved_keeps {α : Type} (text : String) :
    Keeps I (complainReserved text : Parser α) := by
  mvcgen [complainReserved]

@[spec] theorem sourceFrom_keeps (start : Nat) : Keeps I (sourceFrom start) := by mvcgen [sourceFrom]

@[spec] theorem name?_keeps : Keeps I name? := by mvcgen [name?]

@[spec] theorem noteName_keeps (text : String) : Keeps I (noteName text) := by
  mvcgen [noteName]
  all_goals exact Stable.body ‹_› (List.Subset.refl _)

@[spec] theorem notePrivate_keeps (text : String) : Keeps I (notePrivate text) := by
  mvcgen [notePrivate]
  exact Stable.privates ‹_› _

@[spec] theorem ahead_keeps : Keeps I ahead := by mvcgen [ahead]

@[spec] theorem bracketsBefore_keeps (text : String) : Keeps I (bracketsBefore text) := by
  mvcgen [bracketsBefore]

@[spec] theorem paramsFollow_keeps : Keeps I paramsFollow := by mvcgen [paramsFollow]

@[spec] theorem advance_keeps : Keeps I advance := by
  mvcgen [advance]
  exact Stable.token ‹_› ‹_›

@[spec] theorem expectMark_keeps (text : String) : Keeps I (expectMark text) := by mvcgen [expectMark]

@[spec] theorem takeMark_keeps (text : String) : Keeps I (takeMark text) := by mvcgen [takeMark]

@[spec] theorem expectEnd_keeps : Keeps I expectEnd := by mvcgen [expectEnd]

theorem iterate_keeps {α β : Type} {step : α → Parser (α ⊕ β)} (does : ∀ a, Keeps I (step a))
    (fuel : Nat) (a : α) : Keeps I (iterate step fuel a) := by
  induction fuel generalizing a with
  | zero => mvcgen [iterate]
  | succ fuel ih => mvcgen [iterate, does, ih]

@[spec] theorem loop_keeps {α β : Type} {step : α → Parser (α ⊕ β)} (does : ∀ a, Keeps I (step a))
    (start : α) : Keeps I (loop start step) := by
  have repeats := iterate_keeps does
  mvcgen [loop, repeats]

variable {g : Grammar} [g.Respects I]

@[spec] theorem arguments_keeps : Keeps I (arguments g) := by mvcgen [arguments]

@[spec] theorem listLiteral_keeps : Keeps I (listLiteral g) := by mvcgen [listLiteral]

@[spec] theorem memberKey_keeps (privately : Bool) : Keeps I (memberKey g privately) := by
  mvcgen [memberKey]

@[spec] theorem modifiers_keeps : Keeps I modifiers := by mvcgen [modifiers]

@[spec] theorem objectMember_keeps : Keeps I (objectMember g) := by mvcgen [objectMember]

@[spec] theorem objectLiteral_keeps : Keeps I (objectLiteral g) := by mvcgen [objectLiteral]

@[spec] theorem declares_keeps (b : ClassBody) (p : PrivateMember) : Keeps I (b.declares p) := by
  mvcgen [ClassBody.declares]

@[spec] theorem add_keeps (b : ClassBody) (key : Expr) (own : Bool) (kind : MemberKind) (isMethod : Bool)
    (m : Member) : Keeps I (b.add key own kind isMethod m) := by
  mvcgen [ClassBody.add]

@[spec] theorem fieldValue_keeps : Keeps I (fieldValue g) := by
  mvcgen [fieldValue]
  · exact Stable.body ‹_› (List.nil_subset _)
  · exact Stable.returned ‹_› ‹_›

@[spec] theorem classMember_keeps (derived : Bool) (b : ClassBody) :
    Keeps I (classMember g derived b) := by
  mvcgen [classMember]

@[spec] theorem classBody_keeps (derived : Bool) : Keeps I (classBody g derived) := by
  mvcgen [classBody]
  all_goals exact Stable.privates ‹_› _

@[spec] theorem classTree_keeps : Keeps I (classTree g false) := by
  mvcgen [classTree]
  all_goals first | exact Stable.strict ‹_› | exact Stable.restored ‹_› ‹_›

@[spec] theorem functionTree_keeps (isAsync : Bool) (start : Nat) :
    Keeps I (functionTree g isAsync start) := by
  mvcgen [functionTree]
  all_goals exact Stable.body ‹_› (List.Subset.refl _)

@[spec] theorem templateRest_keeps : Keeps I (templateRest g) := by
  mvcgen [templateRest]
  all_goals exact Stable.template ‹_› ‹_›

@[spec] theorem templateLiteral_keeps (t : Token) : Keeps I (templateLiteral g t) := by
  mvcgen [templateLiteral]

@[spec] theorem parenthesized_keeps : Keeps I (parenthesized g) := by mvcgen [parenthesized]

@[spec] theorem regexpLiteral_keeps : Keeps I regexpLiteral := by
  mvcgen [regexpLiteral]
  exact Stable.regexp ‹_› _

@[spec] theorem word_keeps (t : Token) (text : String) (escaped : Bool) :
    Keeps I (word g t text escaped) := by
  mvcgen [word]

@[spec] theorem operand_keeps : Keeps I (operand g) := by mvcgen [operand]

@[spec] theorem fieldOf_keeps (e : Expr) (place : Place) : Keeps I (fieldOf e place) := by
  mvcgen [fieldOf]

@[spec] theorem elementKey_keeps : Keeps I (elementKey g) := by mvcgen [elementKey]

@[spec] theorem accesses_keeps (calls : Bool) (place : Place) (first : Expr) :
    Keeps I (accesses g calls place first) := by
  mvcgen [accesses]

@[spec] theorem superOperand_keeps : Keeps I (superOperand g) := by mvcgen [superOperand]

@[spec] theorem importOperand_keeps (calls : Bool) : Keeps I (importOperand g calls) := by
  mvcgen [importOperand]

@[spec] theorem newOperand_keeps (fuel : Nat) : Keeps I (newOperand g fuel) := by
  induction fuel with
  | zero => mvcgen [newOperand]
  | succ fuel ih => mvcgen [newOperand, ih]

@[spec] theorem access_keeps : Keeps I (access g) := by mvcgen [access]

@[spec] theorem expectTarget_keeps (message : String) (e : Expr) : Keeps I (expectTarget message e) := by
  mvcgen [expectTarget]

@[spec] theorem update_keeps : Keeps I (update g) := by mvcgen [update]

@[spec] theorem deletion_keeps (e : Expr) : Keeps I (deletion e) := by mvcgen [deletion]

@[spec] theorem power_keeps (p : Power) (e : Expr) : Keeps I (power g p e) := by mvcgen [power]

@[spec] theorem awaitExpr_keeps : Keeps I (awaitExpr g) := by mvcgen [awaitExpr]

@[spec] theorem unary_keeps (p : Power) : Keeps I (unary g p) := by mvcgen [unary]

@[spec] theorem privateTest?_keeps (inAllowed : Bool) (ops : List (String × BinaryOp)) :
    Keeps I (privateTest? inAllowed ops) := by
  mvcgen [privateTest?]

@[spec] theorem binary_keeps (inAllowed : Bool) (ops : List (List (String × BinaryOp))) :
    Keeps I (binary g inAllowed ops) := by
  induction ops with
  | nil => mvcgen [binary]
  | cons ops tighter ih => mvcgen [binary, ih]

@[spec] theorem joined_keeps (mark : String) (op : LogicalOp) {operand : Parser Expr}
    (keeps : Keeps I operand) : Keeps I (joined mark op operand) := by
  mvcgen [joined, keeps]

@[spec] theorem disjunction_keeps (inAllowed : Bool) : Keeps I (disjunction g inAllowed) :=
  joined_keeps _ _ (joined_keeps _ _ (binary_keeps inAllowed binaryOps))

@[spec] theorem coalesce_keeps (inAllowed : Bool) : Keeps I (coalesce g inAllowed) := by
  mvcgen [coalesce]

@[spec] theorem conditional_keeps (inAllowed : Bool) : Keeps I (conditional g inAllowed) := by
  mvcgen [conditional]

@[spec] theorem yieldExpr_keeps (inAllowed : Bool) : Keeps I (yieldExpr g inAllowed) := by
  mvcgen [yieldExpr]

@[spec] theorem arrowFollows_keeps : Keeps I arrowFollows := by mvcgen [arrowFollows]

@[spec] theorem arrow?_keeps : Keeps I arrow? := by mvcgen [arrow?]

@[spec] theorem arrow_keeps (isAsync : Bool) (start : Nat) : Keeps I (arrow g isAsync start) := by
  mvcgen [arrow]

@[spec] theorem assignTo_keeps (inAllowed : Bool) (target : Expr) :
    Keeps I (assignTo g inAllowed target) := by
  mvcgen [assignTo]

@[spec] theorem assignment_keeps (inAllowed : Bool) : Keeps I (assignment g inAllowed) := by
  mvcgen [assignment]

@[spec] theorem expression_keeps (inAllowed : Bool) : Keeps I (expression g inAllowed) := by
  mvcgen [expression]

variable (kind : Option DeclarationKind) [Declares I kind]

@[spec] theorem leaf_keeps (message : String) : Keeps I (leaf g message kind) := by
  cases kind with
  | none => mvcgen [leaf]
  | some k =>
    have declares (text : String) := Declares.declares (I := I) k text rfl
    mvcgen [leaf, declares]

@[spec] theorem withDefault_keeps (p : Pattern) : Keeps I (withDefault g p) := by mvcgen [withDefault]

@[spec] theorem listPattern_keeps : Keeps I (listPattern g kind) := by mvcgen [listPattern]

@[spec] theorem fieldPattern_keeps : Keeps I (fieldPattern g kind) := by
  cases kind with
  | none => mvcgen [fieldPattern]
  | some k =>
    have declares (text : String) := Declares.declares (I := I) k text rfl
    mvcgen [fieldPattern, declares]

@[spec] theorem objectPattern_keeps : Keeps I (objectPattern g kind) := by mvcgen [objectPattern]

@[spec] theorem pattern_keeps : Keeps I (pattern g kind) := by mvcgen [pattern]

end

end Patchbay.Script.Parser
