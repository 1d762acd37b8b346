import Patchbay.Script.Parser.State
import Patchbay.Script.Regexp
/-!
Expressions. Every definition here takes the grammar one level down, so that a script nested too
deeply is refused and each definition is bounded by the nesting it is given.
-/
namespace Patchbay.Script

open Binary Text

/-- Whether `**` may follow an operand: it is taken, or refused, or left to what comes next. -/
inductive Power
  | taken
  | refused
  | left
  deriving DecidableEq, Repr

/-- What the statement that comes next may declare. -/
inductive Declarable
  | all
  | labelled
  | function
  | none
  deriving DecidableEq, Repr

namespace Parser

/-- The parts of the grammar that contain each other. A flag says whether `in` is an operator. -/
structure Grammar where
  expression : Bool → Parser Expr
  assignment : Bool → Parser Expr
  unary : Power → Parser Expr
  access : Parser Expr
  pattern : Option DeclarationKind → Parser Pattern
  statement : Declarable → Parser Stmt
  function : Nat → String → FunctionKind → Bool → Bool → Parser Function

def named (n : Name) : Expr → Expr
  | .function f => .function (if f.signature.name.isEmpty then f.rename n else f)
  | .classExpr (.mk m source heritage maker members) =>
    .classExpr (.mk (if m.isEmpty then n else m) source heritage maker members)
  | e => e

def namedFor : Pattern → Expr → Expr
  | .leaf (.name n _), e => named n e
  | _, e => e

def arguments (g : Grammar) : Parser (List Expr) := do
  advance
  let all ← loop [] fun items => do
    if ← isMark ")" then return .inr items
    let spread ← takeMark "..."
    let e ← g.assignment true
    let items := (if spread then .spread e else e) :: items
    if ← isMark ")" then return .inr items
    else if ← takeMark "," then return .inl items
    else complain "expecting ','"
  expectMark ")"
  return all.reverse

def listLiteral (g : Grammar) : Parser Expr := do
  advance
  let all ← loop [] fun items => do
    if ← isMark "]" then return .inr items
    else if ← takeMark "," then return .inl (.hole :: items)
    else
      let spread ← takeMark "..."
      let e ← g.assignment true
      let items := (if spread then .spread e else e) :: items
      if ← takeMark "," then return .inl items else return .inr items
  expectMark "]"
  return .list all.reverse

structure MemberKey where
  key : Expr
  /-- The name that the key writes, unless it is computed or private. -/
  name : Option Name := none
  word : Option String := none
  deriving Inhabited

def memberKey (g : Grammar) (privately : Bool) : Parser MemberKey := do
  let t ← current
  let plain (s : CodeUnits) (word : Option String) : Parser MemberKey := do
    advance
    return ⟨.string s, some s, word⟩
  match t.kind with
  | .word text _ => plain (.ofString text) (some text)
  | .string s => plain s none
  | .number d => plain (numberText d) none
  | .bigint n => plain (.ofString (toString n)) none
  | .privateName text =>
    if !privately then complain "invalid property name"
    if text == "constructor" then complain "invalid method name"
    advance
    return { key := .privateName (.ofString text) }
  | _ =>
    if t.isMark "[" then
      advance
      let e ← g.assignment true
      expectMark "]"
      return { key := e }
    else complain "invalid property name"

def endsKey (t : Token) : Bool :=
  [",", "\x7d", "(", ":", "=", ";"].any t.isMark

structure Modifiers where
  kind : MemberKind := .value
  isAsync : Bool := false
  isGenerator : Bool := false

def Modifiers.isPlain (m : Modifiers) : Bool := m.kind == .value && !m.isAsync && !m.isGenerator

def Modifiers.functionKind (m : Modifiers) : FunctionKind :=
  match m.kind with
  | .value => .method
  | .getter => .getter
  | .setter => .setter

def modifiers : Parser Modifiers := do
  let t ← current
  let next ← following
  let goesOn (u : Token) : Bool := !endsKey u
  let mods : Modifiers ← do
    match t.kind, next with
    | .word "get" false, some u => pure (if goesOn u && !u.isMark "*" then { kind := .getter } else {})
    | .word "set" false, some u => pure (if goesOn u && !u.isMark "*" then { kind := .setter } else {})
    | .word "async" false, some u =>
      pure (if goesOn u && !u.afterLine then { isAsync := true } else {})
    | _, _ => pure {}
  if mods.kind ≠ .value || mods.isAsync then advance
  let star ← if mods.kind = .value then takeMark "*" else pure false
  return { mods with isGenerator := star }

def objectMember (g : Grammar) : Parser Member := do
  if ← takeMark "..." then return .spread (← g.assignment true)
  let start := (← current).start
  let mods ← modifiers
  let t ← current
  let k ← memberKey g false
  let n := k.name.getD default
  if !mods.isPlain || (← isMark "(") then
    if !(← isMark "(") then complain "invalid property name"
    let f ← g.function start "" mods.functionKind mods.isAsync mods.isGenerator
    return .method false k.key mods.kind (f.rename n)
  else if ← takeMark ":" then
    let value := named n (← g.assignment true)
    return if k.name == some (.ofString "__proto__") then .proto value
      else .field false k.key (some value)
  else
    match k.word with
    | some text =>
      if isReserved (← get) text || !((← isMark ",") || (← isMark "\x7d")) then
        complain "expecting ':'"
      else
        noteName text
        return .field false k.key (some (.name (.ofString text) t.place))
    | none => complain "expecting ':'"

def Member.isProto : Member → Bool
  | .proto _ => true
  | _ => false

def objectLiteral (g : Grammar) : Parser Expr := do
  advance
  let all ← loop [] fun members => do
    if ← isMark "\x7d" then return .inr members
    let m ← objectMember g
    if Member.isProto m && members.any Member.isProto then complain "duplicate __proto__ property name"
    if ← takeMark "," then return .inl (m :: members) else return .inr (m :: members)
  expectMark "\x7d"
  return .object all.reverse

/-- A private name that a class has declared, and what takes part of it. -/
structure PrivateMember where
  name : Name
  own : Bool
  kind : MemberKind
  isMethod : Bool

def PrivateMember.joins (a b : PrivateMember) : Bool :=
  a.own == b.own && a.isMethod && b.isMethod && a.kind != b.kind && a.kind != .value && b.kind != .value

structure ClassBody where
  maker : Option Function := none
  members : List Member := []
  privates : List PrivateMember := []
  deriving Inhabited

namespace ClassBody

def declares (b : ClassBody) (p : PrivateMember) : Parser ClassBody := do
  let same := b.privates.filter fun q => q.name == p.name
  if same.length ≤ 1 && same.all p.joins then return { b with privates := p :: b.privates }
  else complain "private class field is already defined"

def add (b : ClassBody) (key : Expr) (own : Bool) (kind : MemberKind) (isMethod : Bool) (m : Member) :
    Parser ClassBody := do
  let b ← match key with
    | .privateName n => b.declares ⟨n, own, kind, isMethod⟩
    | _ => pure b
  return { b with members := m :: b.members }

end ClassBody

def fieldValue (g : Grammar) : Parser Expr := do
  let outer := (← get).body
  modify fun s => { s with body := { scopes := [{}], allows := FunctionKind.initializer.allows {}, inFunction := true } }
  let e ← g.assignment true
  modify fun s => { s with body := outer }
  return e

def classMember (g : Grammar) (derived : Bool) (b : ClassBody) : Parser ClassBody := do
  let start := (← current).start
  let next ← following
  let own := (← isWord "static") && (next.any fun u => !endsKey u)
  if own then advance
  if own && (← isMark "\x7b") then
    let f ← g.function start "" .initializer false false
    return { b with members := .block f :: b.members }
  let mods ← modifiers
  let k ← memberKey g true
  let n := k.name.getD default
  let isConstructor := k.name == some (.ofString "constructor")
  let isPrototype := k.name == some (.ofString "prototype")
  if !mods.isPlain || (← isMark "(") then
    if !(← isMark "(") then complain "invalid property name"
    if (own && isPrototype) || (!own && isConstructor && !mods.isPlain) then complain "invalid method name"
    if !own && isConstructor then
      if b.maker.isSome then complain "property constructor appears more than once"
      let kind : FunctionKind := if derived then .derivedConstructor else .baseConstructor
      return { b with maker := some (← g.function start "" kind false false) }
    else
      let f ← g.function start "" mods.functionKind mods.isAsync mods.isGenerator
      b.add k.key own mods.kind true (.method own k.key mods.kind (f.rename n))
  else
    if isConstructor || (own && isPrototype) then complain "invalid field name"
    let value ← if ← takeMark "=" then
        pure (some (named n (← fieldValue g)))
      else pure none
    expectEnd
    b.add k.key own .value false (.field own k.key value)

/-- The private names that a class leaves to the classes around it are those that it does not declare. -/
def classBody (g : Grammar) (derived : Bool) : Parser ClassBody := do
  let outer := (← get).privates
  modify fun s => { s with privates := [] }
  let b ← loop ({} : ClassBody) fun b => do
    if ← isMark "\x7d" then return .inr b
    else if ← takeMark ";" then return .inl b
    else return .inl (← classMember g derived b)
  let declared (text : String) : Bool := b.privates.any fun p => p.name == .ofString text
  modify fun s => { s with privates := outer ++ s.privates.filter fun text => !declared text }
  return b

def classTree (g : Grammar) (needsName : Bool) : Parser Class := do
  let start := (← current).start
  let outerStrict := (← get).strict
  modify fun s => { s with strict := true }
  advance
  let n ← name?
  if needsName && n.isNone then complain "class statement requires a name"
  match n with
  | some text =>
    if isGuarded text then complain "invalid variable name in strict mode"
    if needsName then declareLexical (.ofString text) .plain
    advance
  | none => pure ()
  let heritage ← if ← isWord "extends" then
      advance
      pure (some (← g.access))
    else pure none
  expectMark "\x7b"
  let b ← classBody g heritage.isSome
  modify fun s => { s with strict := outerStrict }
  expectMark "\x7d"
  return .mk (.ofString (n.getD "")) (← sourceFrom start) heritage b.maker b.members.reverse

def takenBy (isAsync isGenerator : Bool) : List String :=
  (if isGenerator then ["yield"] else []) ++ if isAsync then ["await"] else []

def functionTree (g : Grammar) (isAsync : Bool) (start : Nat) : Parser Function := do
  advance
  let isGenerator ← takeMark "*"
  -- The name is seen by the function only, so the words that the code around it takes are free.
  let outer := (← get).body.taken
  let take (words : List String) : Parser Unit :=
    modify fun s => { s with body := { s.body with taken := words } }
  take (takenBy isAsync isGenerator)
  let n ← name?
  take outer
  if n.isSome then advance
  return (← g.function start (n.getD "") .normal isAsync isGenerator).asExpression

def templateRest (g : Grammar) : Parser (List (Option CodeUnits × CodeUnits) × List Expr) := do
  let (texts, parts) ← loop (([], []) : List (Option CodeUnits × CodeUnits) × List Expr)
    fun (texts, parts) => do
      let t ← current
      match t.kind with
      | .template cooked raw last =>
        let texts := (cooked, raw) :: texts
        advance
        if last then return .inr (texts, parts)
        else
          let e ← g.expression true
          if !(← isMark "\x7d") then complain "expected '\x7d' after template expression"
          let s ← get
          match Lexer.template s.source s.token.stop false s.token.stop with
          | .ok t => set { s with token := t, lastEnd := s.token.stop.index }
          | .error e => throw e
          return .inl (texts, e :: parts)
      | _ => unexpected
  return (texts.reverse, parts.reverse)

def templateLiteral (g : Grammar) (t : Token) : Parser Expr := do
  let (texts, parts) ← templateRest g
  if texts.any fun text => text.1.isNone then complainAt t.place Lexer.malformedEscape
  return .template (texts.map fun text => text.1.getD default) parts

def parenthesized (g : Grammar) : Parser Expr := do
  expectMark "("
  let e ← g.expression true
  expectMark ")"
  return e

def regexpLiteral : Parser Expr := do
  let s ← get
  match Lexer.regexp s.source s.token with
  | .error e => throw e
  | .ok (body, flags, stop) =>
    match Regexp.fault? body flags with
    | some message => complain message
    | none =>
      set { s with token := { s.token with kind := .string default, stop := stop } }
      advance
      return .regexp body flags

def word (g : Grammar) (t : Token) (text : String) (escaped : Bool) : Parser Expr := do
  let plain : Parser Expr := do
    match ← name? with
    | none => unexpected
    | some text =>
      noteName text
      advance
      return .name (.ofString text) t.place
  if escaped then plain
  else
    match text with
    | "function" => return .function (← functionTree g false t.start)
    | "class" => return .classExpr (← classTree g false)
    | "null" => advance; return .null
    | "this" => advance; return .this
    | "true" => advance; return .bool true
    | "false" => advance; return .bool false
    | "async" =>
      if (← following).any fun u => u.isWord "function" && !u.afterLine then
        advance
        return .function (← functionTree g true t.start)
      else plain
    | _ => plain

def operand (g : Grammar) : Parser Expr := do
  let t ← current
  match t.kind with
  | .number d => advance; return .number d
  | .bigint n => advance; return .bigint n
  | .string s => advance; return .string s
  | .template .. => templateLiteral g t
  | .word text escaped => word g t text escaped
  | .mark "(" => parenthesized g
  | .mark "[" => listLiteral g
  | .mark "/" | .mark "/=" => regexpLiteral
  | .mark m => if m == "\x7b" then objectLiteral g else unexpected
  | .privateName _ | .finish => unexpected

def fieldOf (e : Expr) (place : Place) : Parser Expr := do
  match (← current).kind with
  | .word text _ =>
    advance
    return .member e (.ofString text) place
  | .privateName text =>
    notePrivate text
    advance
    return .privateMember e (.ofString text) place
  | _ => complain "expecting field name"

def elementKey (g : Grammar) : Parser Expr := do
  advance
  let key ← g.expression true
  expectMark "]"
  return key

/-- What may follow an operand; calls are left out in front of the arguments of `new`. -/
def accesses (g : Grammar) (calls : Bool) (place : Place) (first : Expr) : Parser (Expr × Bool) :=
  loop (first, false) fun (e, optional) => do
    let t ← current
    match t.kind with
    | .mark "." =>
      advance
      return .inl (← fieldOf e place, optional)
    | .mark "?." =>
      if !calls then complain "new keyword cannot be used with an optional chain"
      advance
      let e := Expr.optional e
      if ← isMark "(" then return .inl (.call e (← arguments g) place, true)
      else if ← isMark "[" then return .inl (.element e (← elementKey g) place, true)
      else return .inl (← fieldOf e place, true)
    | .mark "[" => return .inl (.element e (← elementKey g) place, optional)
    | .mark "(" =>
      if calls then return .inl (.call e (← arguments g) place, optional) else return .inr (e, optional)
    | .template .. =>
      if optional then complain "template literal cannot appear in an optional chain"
      let (texts, parts) ← templateRest g
      return .inl (.tagged e (texts.map Prod.fst) (texts.map Prod.snd) parts place, optional)
    | _ => return .inr (e, optional)

def superOperand (g : Grammar) : Parser Expr := do
  let t ← current
  advance
  let allows := (← get).body.allows
  if ← isMark "(" then
    if !allows.superCall then complain "super() is only valid in a derived class constructor"
    return .superCall (← arguments g) t.place
  else if (← isMark ".") || (← isMark "[") then
    if !allows.superMember then complain "'super' is only valid in a method"
    if ← takeMark "." then
      match (← current).kind with
      | .word text _ =>
        advance
        return .superMember (.string (.ofString text)) t.place
      | .privateName _ => complain "private class field forbidden after super"
      | _ => complain "expecting field name"
    else return .superMember (← elementKey g) t.place
  else complain "invalid use of 'super'"

def importOperand (g : Grammar) (calls : Bool) : Parser Expr := do
  advance
  if ← isMark "." then complain "import.meta only valid in module code"
  expectMark "("
  if !calls then complain "invalid use of 'import()'"
  let e ← g.assignment true
  expectMark ")"
  return .importCall e

/-- What `new` makes: the accesses in front of its arguments, and the arguments. Each further `new`
takes the nearest arguments. -/
def newOperand (g : Grammar) : Nat → Parser Expr
  | 0 => throw .tooDeep
  | fuel + 1 => do
    let t ← current
    advance
    if ← takeMark "." then
      if !(← isWord "target") then complain "expecting target"
      if !(← get).body.allows.newTarget then complain "new.target only allowed within functions"
      advance
      return .newTarget
    else
      let place := (← current).place
      let first ← if ← isWord "new" then newOperand g fuel
        else if ← isWord "super" then superOperand g
        else if ← isWord "import" then importOperand g false
        else operand g
      let (callee, _) ← accesses g false place first
      let args ← if ← isMark "(" then arguments g else pure []
      return .new callee args t.place

def access (g : Grammar) : Parser Expr := do
  let t ← current
  let first ← if t.isWord "new" then newOperand g (← get).source.size
    else if t.isWord "super" then superOperand g
    else if t.isWord "import" then importOperand g true
    else operand g
  let (e, optional) ← accesses g true t.place first
  return if optional then .chain e else e

def isTarget : Expr → Bool
  | .name .. | .member .. | .element .. | .privateMember .. | .superMember .. => true
  | _ => false

def expectTarget (message : String) (e : Expr) : Parser Unit := do
  match e with
  | .name n _ =>
    if (← get).strict && (n == .ofString "arguments" || n == .ofString "eval") then
      complain "invalid lvalue in strict mode"
  | e => if !isTarget e then complain message

def update (g : Grammar) : Parser Expr := do
  let e ← access g
  let t ← current
  if !t.afterLine && (t.isMark "++" || t.isMark "--") then
    expectTarget "invalid increment/decrement operand" e
    advance
    return .update (t.isMark "++") false e
  else return e

def unaryOp? (t : Token) : Option UnaryOp :=
  if t.isMark "+" then some .plus
  else if t.isMark "-" then some .minus
  else if t.isMark "!" then some .not
  else if t.isMark "~" then some .complement
  else if t.isWord "void" then some .void
  else none

/-- What is deleted. A name may not be, in a strict script, and a private one never. -/
def deletion (e : Expr) : Parser Expr := do
  match e with
  | .name .. =>
    if (← get).strict then complain "cannot delete a direct reference in strict mode"
  | .privateMember .. | .chain (.privateMember ..) => complain "cannot delete a private class field"
  | _ => pure ()
  return .delete e

def power (g : Grammar) (p : Power) (e : Expr) : Parser Expr := do
  match p with
  | .taken => if ← takeMark "**" then return .binary .pow e (← g.unary .taken) else return e
  | .refused =>
    if ← isMark "**" then
      complain "unparenthesized unary expression can't appear on the left-hand side of '**'"
    return e
  | .left => return e

def awaitExpr (g : Grammar) : Parser Expr := do
  let body := (← get).body
  if !body.isAsync then complain "unexpected 'await' keyword"
  if body.inParams then complain "await in default expression"
  advance
  return .await (← g.unary .refused)

/-- An operand with the signs in front of it. The operand of a sign is no base of a power. -/
def unary (g : Grammar) (p : Power) : Parser Expr := do
  let t ← current
  match unaryOp? t with
  | some op =>
    advance
    return .unary op (← g.unary .refused)
  | none =>
    if t.isMark "++" || t.isMark "--" then
      advance
      let e ← g.unary .left
      expectTarget "invalid increment/decrement operand" e
      power g p (.update (t.isMark "++") true e)
    else if t.isWord "typeof" then
      advance
      return .typeOf (← g.unary .refused)
    else if t.isWord "delete" then
      advance
      deletion (← g.unary .refused)
    else if t.isWord "await" && isReserved (← get) "await" then awaitExpr g
    else power g p (← update g)

/-- The operators between two operands, the loosest first; those of one line bind alike. -/
def binaryOps : List (List (String × BinaryOp)) :=
  [[("|", .or)], [("^", .xor)], [("&", .and)],
    [("==", .looseEq), ("!=", .looseNe), ("===", .strictEq), ("!==", .strictNe)],
    [("<", .lt), (">", .gt), ("<=", .le), (">=", .ge)],
    [("<<", .shl), (">>", .sar), (">>>", .shr)],
    [("+", .add), ("-", .sub)], [("*", .mul), ("/", .div), ("%", .rem)]]

def binaryOp? (inAllowed : Bool) (ops : List (String × BinaryOp)) (t : Token) : Option BinaryOp :=
  match t.kind with
  | .mark m => ops.lookup m
  | .word "instanceof" false => if (ops.lookup "<").isSome then some .instanceOf else none
  | .word "in" false => if (ops.lookup "<").isSome && inAllowed then some .isIn else none
  | _ => none

/-- The private name that an object is asked for, where the current token is one. -/
def privateTest? (inAllowed : Bool) (ops : List (String × BinaryOp)) : Parser (Option String) := do
  match (← current).kind with
  | .privateName text =>
    if inAllowed && (ops.lookup "<").isSome && ((← following).any fun u => u.isWord "in") then
      return some text
    else return none
  | _ => return none

def binary (g : Grammar) (inAllowed : Bool) : List (List (String × BinaryOp)) → Parser Expr
  | [] => unary g .taken
  | ops :: tighter => do
    let first ← match ← privateTest? inAllowed ops with
      | some text =>
        notePrivate text
        advance
        advance
        pure (.privateIn (.ofString text) (← binary g inAllowed tighter))
      | none => binary g inAllowed tighter
    loop first fun e => do
      match binaryOp? inAllowed ops (← current) with
      | some op =>
        advance
        return .inl (.binary op e (← binary g inAllowed tighter))
      | none => return .inr e

def joined (mark : String) (op : LogicalOp) (operand : Parser Expr) : Parser Expr := do
  let first ← operand
  loop first fun e => do
    if ← takeMark mark then
      let e := Expr.logical op e (← operand)
      if ← isMark "??" then complain "cannot mix ?? with && or ||"
      return .inl e
    else return .inr e

def disjunction (g : Grammar) (inAllowed : Bool) : Parser Expr :=
  joined "||" .or (joined "&&" .and (binary g inAllowed binaryOps))

/-- Operands joined by `??`; the ones behind the first are joined by no other operator of the kind. -/
def coalesce (g : Grammar) (inAllowed : Bool) : Parser Expr := do
  let first ← disjunction g inAllowed
  loop first fun e => do
    if ← takeMark "??" then
      return .inl (.logical .coalesce e (← binary g inAllowed binaryOps))
    else return .inr e

def conditional (g : Grammar) (inAllowed : Bool) : Parser Expr := do
  let test ← coalesce g inAllowed
  if ← takeMark "?" then
    let yes ← g.assignment true
    expectMark ":"
    return .conditional test yes (← g.assignment inAllowed)
  else return test

def assignOps : List (String × BinaryOp) :=
  [("+=", .add), ("-=", .sub), ("*=", .mul), ("/=", .div), ("%=", .rem), ("**=", .pow),
    ("<<=", .shl), (">>=", .sar), (">>>=", .shr), ("&=", .and), ("|=", .or), ("^=", .xor)]

def assignLogicalOps : List (String × LogicalOp) :=
  [("&&=", .and), ("||=", .or), ("??=", .coalesce)]

def yieldExpr (g : Grammar) (inAllowed : Bool) : Parser Expr := do
  let body := (← get).body
  if !body.isGenerator then complain "unexpected 'yield' keyword"
  if body.inParams then complain "yield in default expression"
  advance
  let t ← current
  let ends := t.afterLine || t.isFinish || t.isWord "in" ||
    [")", "]", "\x7d", ",", ";", ":"].any t.isMark
  if ends then return .yield none false
  else
    let delegate ← takeMark "*"
    return .yield (some (← g.assignment inAllowed)) delegate

def arrowFollows : Parser Bool := do
  if (← name?).isNone then return false
  return (← following).any fun u => u.isMark "=>" && !u.afterLine

/-- Whether an arrow function comes next: that it does not wait, or that it does. -/
def arrow? : Parser (Option Bool) := do
  let s ← get
  if s.token.isMark "(" then
    return if ← paramsFollow then some false else none
  else if s.token.isWord "async" && ((← following).any fun u => !u.afterLine && !u.isWord "function") then
    advance
    let waits ← if ← isMark "(" then paramsFollow else arrowFollows
    set s
    if waits then return some true
  return if ← arrowFollows then some false else none

def arrow (g : Grammar) (isAsync : Bool) (start : Nat) : Parser Expr := do
  if isAsync then advance
  return .function (← g.function start "" .arrow isAsync false)

/-- What is assigned to a target that has been read, if an assignment follows. -/
def assignTo (g : Grammar) (inAllowed : Bool) (target : Expr) : Parser Expr := do
  match (← current).kind with
  | .mark m =>
    let value : Parser Expr := do
      expectTarget "invalid assignment left-hand side" target
      advance
      g.assignment inAllowed
    if m == "=" then return .assign (.leaf target) (namedFor (.leaf target) (← value))
    else
      match assignOps.lookup m, assignLogicalOps.lookup m with
      | some op, _ => return .assignOp op target (← value)
      | _, some op => return .assignLogical op target (namedFor (.leaf target) (← value))
      | none, none => return target
  | _ => return target

def assignment (g : Grammar) (inAllowed : Bool) : Parser Expr := do
  let t ← current
  if t.isWord "yield" && isReserved (← get) "yield" then yieldExpr g inAllowed
  else
    match ← arrow? with
    | some isAsync => arrow g isAsync t.start
    | none =>
      if (t.isMark "[" || t.isMark "\x7b") && (← bracketsBefore "=") then
        let p ← g.pattern none
        expectMark "="
        return .assign p (← g.assignment inAllowed)
      else assignTo g inAllowed (← conditional g inAllowed)

def expression (g : Grammar) (inAllowed : Bool) : Parser Expr := do
  let first ← g.assignment inAllowed
  loop first fun e => do
    if ← takeMark "," then return .inl (.comma e (← g.assignment inAllowed)) else return .inr e

def invalidPattern : String := "invalid destructuring target"

/-- A name that is declared, or an access that is assigned to; the message is about anything else. -/
def leaf (g : Grammar) (message : String) (kind : Option DeclarationKind) : Parser Pattern := do
  match kind with
  | some kind =>
    let t ← current
    match ← name? with
    | none => complain "variable name expected"
    | some text =>
      advance
      declare kind text
      return .leaf (.name (.ofString text) t.place)
  | none =>
    let e ← access g
    expectTarget message e
    return .leaf e

def withDefault (g : Grammar) (p : Pattern) : Parser Pattern := do
  if ← takeMark "=" then return .orElse p (namedFor p (← g.assignment true)) else return p

def listPattern (g : Grammar) (kind : Option DeclarationKind) : Parser Pattern := do
  advance
  let all ← loop [] fun items => do
    if ← isMark "]" then return .inr items
    else if ← takeMark "," then return .inl (.hole :: items)
    else if ← takeMark "..." then
      let p ← g.pattern kind
      if !(← isMark "]") then complain "rest element must be the last one"
      return .inr (.rest p :: items)
    else
      let item ← withDefault g (← g.pattern kind)
      if ← takeMark "," then return .inl (item :: items) else return .inr (item :: items)
  expectMark "]"
  return .list all.reverse

def fieldPattern (g : Grammar) (kind : Option DeclarationKind) : Parser Pattern := do
  let t ← current
  let k ← memberKey g false
  if ← takeMark ":" then
    return .field k.key (← withDefault g (← g.pattern kind))
  else
    match k.word with
    | some text =>
      let s ← get
      if isReserved s text then complainReserved text
      else
        if s.strict && isGuarded text then complain invalidPattern
        match kind with
        | some kind => declare kind text
        | none => noteName text
        return .field k.key (← withDefault g (.leaf (.name (.ofString text) t.place)))
    | none => complain "expecting ':'"

def objectPattern (g : Grammar) (kind : Option DeclarationKind) : Parser Pattern := do
  advance
  let all ← loop [] fun fields => do
    if ← isMark "\x7d" then return .inr fields
    else if ← takeMark "..." then
      let p ← leaf g invalidPattern kind
      if !(← isMark "\x7d") then complain "assignment rest property must be last"
      return .inr (.rest p :: fields)
    else
      let f ← fieldPattern g kind
      if ← takeMark "," then return .inl (f :: fields) else return .inr (f :: fields)
  expectMark "\x7d"
  return .object all.reverse

/-- A pattern. One that declares names notes them; one that does not may be any target. -/
def pattern (g : Grammar) (kind : Option DeclarationKind) : Parser Pattern := do
  let t ← current
  let accessed (u : Token) : Bool := [".", "[", "(", "?."].any u.isMark || u.kind matches .template ..
  let nested := kind.isSome || !(← ahead).next.any accessed
  if t.isMark "[" && nested then listPattern g kind
  else if t.isMark "\x7b" && nested then objectPattern g kind
  else leaf g invalidPattern kind

end Parser

end Patchbay.Script
