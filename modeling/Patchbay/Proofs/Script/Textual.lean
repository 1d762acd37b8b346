import Patchbay.Proofs.Script.Invariant

/-!
Invariants that only speak of the source and of the current token. Declarations and scopes do not
touch these, so the whole grammar keeps them, statements and functions included.
-/
namespace Patchbay.Script.Parser

open Std.Do

set_option mvcgen.warning false
-- The instances tell `mvcgen` which invariant is meant, also where a proof does not use them.
set_option linter.unusedSectionVars false

/-- An invariant that nothing but the source and the current token bears on. -/
class Textual (I : outParam (ParserState → Prop)) : Prop extends Stable I where
  regardless : ∀ {s}, I s →
    ∀ {lastEnd strict body privates}, I ⟨s.source, s.token, lastEnd, strict, body, privates⟩

class Grammar.RespectsAll (I : outParam (ParserState → Prop)) (g : Grammar) : Prop
    extends g.Respects I where
  statement : ∀ d, Keeps I (g.statement d)

attribute [spec] Grammar.RespectsAll.statement

section

variable {I : ParserState → Prop} [Textual I]

@[spec] theorem inScope_keeps {α : Type} (scope : ScopeNames) {body : Parser α} (keeps : Keeps I body) :
    Keeps I (inScope scope body) := by
  mvcgen [inScope, keeps]
  all_goals exact Textual.regardless ‹_›

@[spec] theorem within_keeps {α : Type} (e : Enclosing) {body : Parser α} (keeps : Keeps I body) :
    Keeps I (within e body) := by
  mvcgen [within, keeps]
  all_goals exact Textual.regardless ‹_›

@[spec] theorem setScopes_keeps (scopes : List ScopeNames) : Keeps I (setScopes scopes) := by
  mvcgen [setScopes]
  exact Textual.regardless ‹_›

@[spec] theorem addVar_keeps (n : Name) : Keeps I (addVar n) := by
  mvcgen [addVar]
  exact Textual.regardless ‹_›

@[spec] theorem declareLexical_keeps (n : Name) (kind : LexicalKind) :
    Keeps I (declareLexical n kind) := by
  mvcgen [declareLexical]

@[spec] theorem declareVar_keeps (n : Name) : Keeps I (declareVar n) := by mvcgen [declareVar]

@[spec] theorem checkDeclared_keeps (text : String) : Keeps I (checkDeclared text) := by
  mvcgen [checkDeclared]

@[spec] theorem declare_keeps (kind : DeclarationKind) (text : String) :
    Keeps I (declare kind text) := by
  cases kind <;> mvcgen [declare]

@[spec] theorem declareCaught_keeps (text : String) : Keeps I (declareCaught text) := by
  mvcgen [declareCaught]

@[spec] theorem declareFunction_keeps (n : Name) (plain : Bool) :
    Keeps I (declareFunction n plain) := by
  mvcgen [declareFunction]

instance {I : ParserState → Prop} [Textual I] (kind : Option DeclarationKind) : Declares I kind :=
  ⟨fun k text _ => declare_keeps k text⟩

@[spec] theorem lexicalKind?_keeps (d : Declarable) : Keeps I (lexicalKind? d) := by
  mvcgen [lexicalKind?]

@[spec] theorem checkJump_keeps (again : Bool) (label : Option Name) :
    Keeps I (checkJump again label) := by
  mvcgen [checkJump]

@[spec] theorem jumpLabel_keeps (again : Bool) : Keeps I (jumpLabel again) := by mvcgen [jumpLabel]

@[spec] theorem readDirectives_keeps : Keeps I readDirectives := by
  mvcgen [readDirectives]
  exact Textual.regardless ‹_›

@[spec] theorem checkCount_keeps (kind : FunctionKind) (params : List Pattern) :
    Keeps I (checkCount kind params) := by
  mvcgen [checkCount]

@[spec] theorem checkNames_keeps (name : String) (kind : FunctionKind) (params : List Pattern)
    (directive : Bool) : Keeps I (checkNames name kind params directive) := by
  mvcgen [checkNames]

variable {g : Grammar} [g.RespectsAll I]

@[spec] theorem classDeclaration_keeps : Keeps I (classTree g true) := by
  mvcgen [classTree]
  all_goals first | exact Stable.strict ‹_› | exact Stable.restored ‹_› ‹_›

@[spec] theorem declarator_keeps (kind : DeclarationKind) (inAllowed : Bool) :
    Keeps I (declarator g kind inAllowed) := by
  mvcgen [declarator]

@[spec] theorem declarators_keeps (kind : DeclarationKind) (inAllowed : Bool) :
    Keeps I (declarators g kind inAllowed) := by
  mvcgen [declarators]

@[spec] theorem functionDeclaration_keeps (isAsync : Bool) (start : Nat) :
    Keeps I (functionDeclaration g isAsync start) := by
  mvcgen [functionDeclaration]

@[spec] theorem statements_keeps : Keeps I (statements g) := by mvcgen [statements]

@[spec] theorem block_keeps : Keeps I (block g) := by mvcgen [block]

@[spec] theorem repeated_keeps : Keeps I (repeated g) := by mvcgen [repeated]

@[spec] theorem loopTarget_keeps (awaits : Bool) : Keeps I (loopTarget g awaits) := by
  mvcgen [loopTarget]

@[spec] theorem loopStart_keeps (kind : Option DeclarationKind) (target : Pattern) :
    Keeps I (loopStart g kind target) := by
  mvcgen [loopStart]

@[spec] theorem forEach_keeps (awaits : Bool) : Keeps I (forEach g awaits) := by mvcgen [forEach]

@[spec] theorem forSteps_keeps : Keeps I (forSteps g) := by mvcgen [forSteps]

@[spec] theorem forStatement_keeps : Keeps I (forStatement g) := by mvcgen [forStatement]

@[spec] theorem switchStatement_keeps : Keeps I (switchStatement g) := by mvcgen [switchStatement]

@[spec] theorem caught_keeps : Keeps I (caught g) := by mvcgen [caught]

@[spec] theorem tryStatement_keeps : Keeps I (tryStatement g) := by mvcgen [tryStatement]

@[spec] theorem expressionStatement_keeps : Keeps I (expressionStatement g) := by
  mvcgen [expressionStatement]

@[spec] theorem branchBody_keeps : Keeps I (branchBody g) := by mvcgen [branchBody]

@[spec] theorem returnStatement_keeps : Keeps I (returnStatement g) := by mvcgen [returnStatement]

@[spec] theorem keywordStatement_keeps (d : Declarable) (t : Token) (text : String) :
    Keeps I (keywordStatement g d t text) := by
  mvcgen [keywordStatement]

@[spec] theorem labelledStatement_keeps (d : Declarable) (text : String) :
    Keeps I (labelledStatement g d text) := by
  mvcgen [labelledStatement]

@[spec] theorem statement_keeps (d : Declarable) : Keeps I (statement g d) := by mvcgen [statement]

@[spec] theorem parameters_keeps : Keeps I (parameters g) := by mvcgen [parameters]

@[spec] theorem parametersOf_keeps (kind : FunctionKind) : Keeps I (parametersOf g kind) := by
  mvcgen [parametersOf]

@[spec] theorem function_keeps (start : Nat) (name : String) (kind : FunctionKind)
    (isAsync isGenerator : Bool) : Keeps I (function g start name kind isAsync isGenerator) := by
  mvcgen [function]
  all_goals exact Textual.regardless ‹_›

end

theorem tooDeep_keeps {α : Type} {I : ParserState → Prop} : Keeps I (throw .tooDeep : Parser α) :=
  Keeps.of_run fun _ _ _ _ ok => by cases ok

/-- However deep it is nested, the grammar keeps what only the source and the token bear on. -/
theorem grammar_respectsAll {I : ParserState → Prop} [Textual I] (depth : Nat) :
    (grammar depth).RespectsAll I := by
  induction depth with
  | zero =>
    have respects : (grammar 0).Respects I := ⟨fun _ => tooDeep_keeps, fun _ => tooDeep_keeps,
      fun _ => tooDeep_keeps, tooDeep_keeps, fun _ _ => tooDeep_keeps, fun _ _ _ _ _ => tooDeep_keeps⟩
    exact ⟨fun _ => tooDeep_keeps⟩
  | succ depth ih =>
    have respects : (grammar (depth + 1)).Respects I := ⟨expression_keeps, assignment_keeps,
      unary_keeps, access_keeps, fun kind => pattern_keeps kind, function_keeps⟩
    exact ⟨statement_keeps⟩

end Patchbay.Script.Parser
