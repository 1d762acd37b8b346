import Patchbay.Script.Parser.Expression
/-!
Statements, functions and whole scripts. A script is nested as deeply as the grammar it is read with.
-/
namespace Patchbay.Script.Parser

open Text

def lexicalRefused : String := "lexical declarations can't appear in single-statement context"

def functionRefused : String := "function declarations can't appear in single-statement context"

def classRefused : String := "class declarations can't appear in single-statement context"

/-- The kind of the lexical declaration that comes next, if one does. Where nothing may be declared, a name
on a line of its own does not belong to the `let` before it. -/
def lexicalKind? (d : Declarable) : Parser (Option DeclarationKind) := do
  let s ← get
  if s.token.isWord "const" then return some .const
  else if s.token.isWord "let" then
    if s.strict then return some .lexical
    else
      let starts (u : Token) : Bool :=
        u.isMark "\x7b" ||
          match u.kind with
          | .word text _ => !isReserved s text || ["yield", "let", "await"].contains text
          | _ => false
      let declares (u : Token) : Bool := u.isMark "[" || (starts u && (d == .all || !u.afterLine))
      return if (← following).any declares then some .lexical else none
  else return none

def declarator (g : Grammar) (kind : DeclarationKind) (inAllowed : Bool) : Parser Stmt := do
  let t ← current
  if (t.isMark "[" || t.isMark "\x7b") && (← bracketsBefore "=") then
    let p ← g.pattern (some kind)
    expectMark "="
    return .declare kind p (some (← g.assignment inAllowed))
  else
    let p ← leaf g invalidPattern (some kind)
    if ← takeMark "=" then
      return .declare kind p (some (namedFor p (← g.assignment inAllowed)))
    else if kind == .const then complain "missing initializer for const variable"
    else return .declare kind p none

def declarators (g : Grammar) (kind : DeclarationKind) (inAllowed : Bool) : Parser Stmt := do
  let all ← loop [] fun parts => do
    let part ← declarator g kind inAllowed
    if ← takeMark "," then return .inl (part :: parts) else return .inr (part :: parts)
  return match all with
    | [part] => part
    | all => .group all.reverse

def functionDeclaration (g : Grammar) (isAsync : Bool) (start : Nat) : Parser Stmt := do
  advance
  let isGenerator ← takeMark "*"
  match ← name? with
  | none => complain "function name expected"
  | some text =>
    advance
    let outward ← declareFunction (.ofString text) (!isAsync && !isGenerator)
    return .function (← g.function start text .normal isAsync isGenerator) outward

def statements (g : Grammar) : Parser (List Stmt) := do
  let all ← loop [] fun body => do
    if ← isMark "\x7d" then return .inr body else return .inl ((← g.statement .all) :: body)
  return all.reverse

def block (g : Grammar) : Parser (List Stmt) := do
  expectMark "\x7b"
  let body ← inScope {} (statements g)
  expectMark "\x7d"
  return body

def repeated (g : Grammar) : Parser Stmt := within { label := none, isLoop := true } (g.statement .none)

def loopTarget (g : Grammar) (awaits : Bool) : Parser (Option DeclarationKind × Pattern) := do
  let kind ← if ← isWord "var" then pure (some .var) else lexicalKind? .all
  if kind.isSome then advance
  let t ← current
  let opens := t.isMark "[" || t.isMark "\x7b"
  if kind.isSome then
    return (kind, ← if opens then g.pattern kind else leaf g invalidPattern kind)
  else
    if !awaits && t.isWord "async" && ((← following).any fun u => u.isWord "of") then
      complain "'for of' expression cannot start with 'async'"
    if opens && ((← ahead).next.any fun u => u.isWord "in" || u.isWord "of") then
      return (none, ← g.pattern none)
    else return (none, ← leaf g "invalid for in/of left hand-side" none)

/-- What a variable of the head is set to before the loop, which is left over from older scripts. -/
def loopStart (g : Grammar) (kind : Option DeclarationKind) (target : Pattern) : Parser (Option Stmt) := do
  if kind.isSome && (← takeMark "=") then
    let value ← g.assignment false
    let allowed := kind == some .var && (target matches .leaf _) && !(← get).strict && (← isWord "in")
    if !allowed then
      let loop := if ← isWord "of" then "of" else "in"
      complain ("a declaration in the head of a for-" ++ loop ++ " loop can't have an initializer")
    return some (.declare .var target (some (namedFor target value)))
  else return none

def forEach (g : Grammar) (awaits : Bool) : Parser Stmt := do
  let (kind, target) ← loopTarget g awaits
  let init ← loopStart g kind target
  let isOf ← isWord "of"
  let isIn ← isWord "in"
  if !isOf && !isIn then complain "expected 'of' or 'in' in for control expression"
  if awaits && isIn then complain "'for await' loop should be used with 'of'"
  advance
  let object ← if isOf then g.assignment true else g.expression true
  expectMark ")"
  let body ← repeated g
  -- Nothing behind a wait runs, so a loop that waits for its items is a wait for what has them.
  let each := if isOf then Stmt.forOf kind target (if awaits then .await object else object) body
    else Stmt.forIn kind target object body
  return match init with
    | some init => .group [init, each]
    | none => each

def forSteps (g : Grammar) : Parser Stmt := do
  let init ← do
    if ← isMark ";" then pure none
    else if ← isWord "var" then
      advance
      pure (some (← declarators g .var false))
    else
      match ← lexicalKind? .all with
      | some kind =>
        advance
        pure (some (← declarators g kind false))
      | none => pure (some (.expr (← g.expression false)))
  expectMark ";"
  let test ← if ← isMark ";" then pure none else pure (some (← g.expression true))
  expectMark ";"
  let update ← if ← isMark ")" then pure none else pure (some (← g.expression true))
  expectMark ")"
  return .forLoop init test update (← repeated g)

def forStatement (g : Grammar) : Parser Stmt := do
  advance
  let awaits ← isWord "await"
  if awaits then
    if !(← get).body.isAsync then complain "for await is only valid in asynchronous functions"
    advance
  let steps ← if !awaits && (← isMark "(") then pure (← ahead).semicolon else pure false
  expectMark "("
  inScope {} (if steps then forSteps g else forEach g awaits)

def isDefault : Stmt → Bool
  | .branchCase none _ => true
  | _ => false

def switchStatement (g : Grammar) : Parser Stmt := do
  advance
  let value ← parenthesized g
  expectMark "\x7b"
  let cases ← within { label := none, isLoop := false, isSwitch := true } <| inScope {} <|
      loop ([] : List Stmt) fun cases => do
    if ← isMark "\x7d" then return .inr cases
    let test ← if ← isWord "case" then
        advance
        pure (some (← g.expression true))
      else if ← isWord "default" then
        advance
        pure none
      else complain "invalid switch statement"
    expectMark ":"
    if test.isNone && cases.any isDefault then complain "duplicate default"
    let body ← loop [] fun body => do
      if (← isMark "\x7d") || (← isWord "case") || (← isWord "default") then return .inr body
      else return .inl ((← g.statement .all) :: body)
    return .inl (.branchCase test body.reverse :: cases)
  expectMark "\x7d"
  return .switch value cases.reverse

/-- What a `catch` takes of what it has caught, in brackets if it takes any of it. -/
def caught (g : Grammar) : Parser (Option Pattern) := do
  if ← takeMark "(" then
    let t ← current
    let p ← if t.isMark "[" || t.isMark "\x7b" then g.pattern (some .lexical) else
      match ← name? with
      | none => complain "identifier expected"
      | some text =>
        advance
        declareCaught text
        pure (.leaf (.name (.ofString text) t.place))
    expectMark ")"
    return some p
  else return none

def tryStatement (g : Grammar) : Parser Stmt := do
  advance
  let body ← block g
  let (param, handler) ← if ← isWord "catch" then do
      advance
      inScope { isCatch := true } do
        let param ← caught g
        pure (param, some (Stmt.block (← block g)))
    else pure (none, none)
  let finalizer ← if ← isWord "finally" then
      advance
      pure (some (Stmt.block (← block g)))
    else pure none
  if handler.isNone && finalizer.isNone then complain "expecting catch or finally"
  return .attempt body param handler finalizer

def checkJump (again : Bool) (label : Option Name) : Parser Unit := do
  let around := (← get).body.enclosing
  if !around.any fun e => e.label == label && (e.isLoop || !again && (label.isSome || e.isSwitch)) then
    complain (if label.isSome then "break/continue label not found"
      else if again then "continue must be inside loop"
      else "break must be inside loop or switch")

def jumpLabel (again : Bool) : Parser (Option Name) := do
  advance
  let t ← current
  let label ← if t.afterLine then pure none else pure ((← name?).map CodeUnits.ofString)
  checkJump again label
  if label.isSome then advance
  expectEnd
  return label

def expressionStatement (g : Grammar) : Parser Stmt := do
  let e ← g.expression true
  expectEnd
  return .expr e

/-- A branch of a condition. A plain function there stands in a block of its own. -/
def branchBody (g : Grammar) : Parser Stmt := do
  let strict := (← get).strict
  let s ← inScope {} (g.statement (if strict then .none else .function))
  return match s with
    | .function f outward => .block [.function f outward]
    | s => s

def returnStatement (g : Grammar) : Parser Stmt := do
  let body := (← get).body
  if !body.inFunction then complain "return not in a function"
  if body.isInitializer then complain "return in a static initializer block"
  advance
  let u ← current
  if u.afterLine || u.isFinish || u.isMark ";" || u.isMark "\x7d" then
    expectEnd
    return .returns none
  else
    let e ← g.expression true
    expectEnd
    return .returns (some e)

def keywordStatement (g : Grammar) (d : Declarable) (t : Token) (text : String) : Parser Stmt := do
  match text with
  | "var" =>
    advance
    let s ← declarators g .var true
    expectEnd
    return s
  | "function" =>
    let starred := (← following).any fun u => u.isMark "*"
    if d == .none || (d != .all && starred) then complain functionRefused
    functionDeclaration g false t.start
  | "class" =>
    if d != .all then complain classRefused
    return .classDecl (← classTree g true)
  | "if" =>
    advance
    let test ← parenthesized g
    let yes ← branchBody g
    if ← isWord "else" then
      advance
      return .branch test yes (some (← branchBody g))
    else return .branch test yes none
  | "while" =>
    advance
    let test ← parenthesized g
    return .whileLoop test (← repeated g)
  | "do" =>
    advance
    let body ← repeated g
    if !(← isWord "while") then complain "expecting 'while'"
    advance
    let test ← parenthesized g
    let _ ← takeMark ";"
    return .doLoop body test
  | "for" => forStatement g
  | "switch" => switchStatement g
  | "try" => tryStatement g
  | "break" => return .breaks (← jumpLabel false)
  | "continue" => return .continues (← jumpLabel true)
  | "return" => returnStatement g
  | "throw" =>
    advance
    if (← current).afterLine then complain "line terminator not allowed after throw"
    let e ← g.expression true
    expectEnd
    return .throws e
  | "debugger" =>
    advance
    expectEnd
    return .empty
  | _ => expressionStatement g

def startsLoop (s : ParserState) : Nat → Token → Bool
  | 0, _ => false
  | fuel + 1, t =>
    ["for", "while", "do"].any t.isWord ||
      match t.kind, Lexer.token s.source s.strict t.stop with
      | .word .., .ok u =>
        u.isMark ":" &&
          match Lexer.token s.source s.strict u.stop with
          | .ok v => startsLoop s fuel v
          | .error _ => false
      | _, _ => false

def labelledStatement (g : Grammar) (d : Declarable) (text : String) : Parser Stmt := do
  let label := CodeUnits.ofString text
  if (← get).body.enclosing.any fun e => e.label == some label then complain "duplicate label name"
  advance
  advance
  let s ← get
  let inner := if !s.strict && (d == .all || d == .labelled) then .labelled else Declarable.none
  let isLoop := startsLoop s s.source.size s.token
  return .labelled label (← within { label := some label, isLoop := isLoop } (g.statement inner))

def statement (g : Grammar) (d : Declarable) : Parser Stmt := do
  let t ← current
  match t.kind with
  | .word text escaped =>
    let s ← get
    let next ← following
    if !isReserved s text && (next.any fun u => u.isMark ":") then labelledStatement g d text
    else if escaped then expressionStatement g
    else if text == "async" && (next.any fun u => u.isWord "function" && !u.afterLine) then
      if d != .all then complain functionRefused
      advance
      functionDeclaration g true t.start
    else
      match ← lexicalKind? d with
      | some kind =>
        if d != .all then complain lexicalRefused
        advance
        let s ← declarators g kind true
        expectEnd
        return s
      | none => keywordStatement g d t text
  | .mark m =>
    if m == "\x7b" then return .block (← block g)
    else if m == ";" then
      advance
      return .empty
    else expressionStatement g
  | _ => expressionStatement g

/-- Whether the statements that come next start with a directive that makes them strict. -/
def strictDirective (s : ParserState) : Nat → Token → Bool
  | 0, _ => false
  | fuel + 1, t =>
    match t.kind with
    | .string _ =>
      match Lexer.token s.source s.strict t.stop with
      | .error _ => false
      | .ok u =>
        if !(u.isMark ";" || u.isMark "\x7d" || u.isFinish || u.afterLine) then false
        else
          let text := s.source.slice (t.start + 1) (t.stop.index - 1)
          if text == "use strict" then true
          else if u.isMark ";" then
            match Lexer.token s.source s.strict u.stop with
            | .ok v => strictDirective s fuel v
            | .error _ => false
          else strictDirective s fuel u
    | _ => false

/-- Reads the directives that come next; the answer says whether one of them makes the code strict. -/
def readDirectives : Parser Bool := do
  let s ← get
  let found := strictDirective s s.source.size s.token
  if found then set { s with strict := true }
  return found

def parameters (g : Grammar) : Parser (List Pattern) := do
  expectMark "("
  let all ← loop [] fun params => do
    if ← isMark ")" then return .inr params
    let isRest ← takeMark "..."
    let t ← current
    if !(t.isMark "[" || t.isMark "\x7b") && (← name?).isNone then complain "missing formal parameter"
    let p ← g.pattern (some .var)
    if isRest then return .inr (.rest p :: params)
    let p ← withDefault g p
    if ← takeMark "," then return .inl (p :: params) else return .inr (p :: params)
  expectMark ")"
  return all.reverse

def expectedCount (params : List Pattern) : Nat :=
  (params.takeWhile fun p =>
    match p with
    | .orElse .. | .rest _ => false
    | _ => true).length

def checkCount (kind : FunctionKind) (params : List Pattern) : Parser Unit := do
  let fits := match kind with
    | .getter => params.isEmpty
    | .setter => params.length = 1 && !(params.any fun p => p matches .rest _)
    | _ => true
  if !fits then complain "invalid number of arguments for getter or setter"

/-- Complains about the names of a function and of its parameters, once the directives of its body are
known; the flag says whether they make it strict. -/
def checkNames (name : String) (kind : FunctionKind) (params : List Pattern) (directive : Bool) :
    Parser Unit := do
  let strict := (← get).strict
  let names := namesOfAll params
  let isSimple := params.all fun p => p matches .leaf _
  if directive && !isSimple then
    complain "\"use strict\" not allowed in function with default or destructuring parameter"
  if strict then
    if isGuarded name then complain "invalid function name in strict code"
    if names.any fun n => n == .ofString "eval" || n == .ofString "arguments" then
      complain "invalid argument name in strict code"
    match (name :: names.map CodeUnits.lossy).find? strictWords.contains with
    | some text => complainReserved text
    | none => pure ()
  if (strict || !isSimple || kind != .normal) && !names.Nodup then
    complain "duplicate argument names not allowed in this context"

/-- The parameters of a function. An arrow function may have one without brackets, and a block of a
class has none. -/
def parametersOf (g : Grammar) (kind : FunctionKind) : Parser (List Pattern) := do
  if kind == .initializer then return []
  else if kind == .arrow && !(← isMark "(") then return [← leaf g invalidPattern (some .var)]
  else parameters g

/-- A function from its parameters on. An arrow function may have an expression for a body, and it
shares the arguments of the function around it. -/
def function (g : Grammar) (start : Nat) (name : String) (kind : FunctionKind)
    (isAsync isGenerator : Bool) : Parser Function := do
  let outer ← get
  let isArrow := kind == .arrow
  let isInitializer := kind == .initializer
  let taken := if isInitializer then ["await"] else takenBy isAsync isGenerator
  set { outer with body := {
    inFunction := true, isInitializer := isInitializer, isAsync := isAsync, isGenerator := isGenerator,
    inParams := true, taken := if isArrow then taken ++ outer.body.taken else taken,
    allows := kind.allows outer.body.allows } }
  let params ← parametersOf g kind
  checkCount kind params
  modify fun s => { s with body := { s.body with
    inParams := false, taken := taken, scopes := [{ params := s.body.vars }], vars := [] } }
  if isArrow then expectMark "=>"
  let (body, braced) ← if isArrow && !(← isMark "\x7b") then
      checkNames name kind params false
      pure ([Stmt.returns (some (← g.assignment true))], false)
    else
      if !(← isMark "\x7b") then complain "expecting '\x7b'"
      advance
      checkNames name kind params (← readDirectives)
      pure (← statements g, true)
  let inner ← get
  let usesArguments := inner.body.usesArguments
  set { inner with
    strict := outer.strict
    body := { outer.body with usesArguments := outer.body.usesArguments || (isArrow && usesArguments) } }
  if braced then expectMark "\x7d"
  let signature : Signature := ⟨.ofString name, kind, isAsync, isGenerator, inner.strict,
    inner.body.vars.reverse, usesArguments, expectedCount params, false, ← sourceFrom start⟩
  return .mk signature params body

def grammar : Nat → Grammar
  | 0 =>
    ⟨fun _ => throw .tooDeep, fun _ => throw .tooDeep, fun _ => throw .tooDeep, throw .tooDeep,
      fun _ => throw .tooDeep, fun _ => throw .tooDeep, fun _ _ _ _ _ => throw .tooDeep⟩
  | depth + 1 =>
    let g := grammar depth
    ⟨expression g, assignment g, unary g, access g, pattern g, statement g, function g⟩

/-- A whole script. A private name that no class has declared is complained about at its end. -/
def program (g : Grammar) : Parser Program := do
  let _ ← readDirectives
  let all ← loop [] fun body => do
    if (← current).isFinish then return .inr body else return .inl ((← g.statement .all) :: body)
  let s ← get
  match s.privates.getLast? with
  | some text => complain ("undefined private field '#" ++ text ++ "'")
  | none => return ⟨all.reverse, s.body.vars.reverse, s.strict⟩

/-- The cursor behind a first line that only tells the system how to run the script. -/
def start (s : Source) : Cursor :=
  if s.code 0 = 0x23 && s.code 1 = 0x21 then Lexer.lineComment s s.size {} else {}

def parse (depth : Nat) (s : Source) (strict : Bool) : Except Complaint Program := do
  let first ← Lexer.token s strict (start s)
  match (program (grammar depth)).run { source := s, token := first, strict := strict } with
  | .ok p _ => .ok p
  | .error e _ => .error e

end Patchbay.Script.Parser
