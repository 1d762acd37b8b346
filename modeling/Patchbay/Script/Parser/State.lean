import Patchbay.Script.Lexer
/-!
The state of a parser: the current token, the function that it is in, and the names that the scopes around
it declare. A name is checked against them when it is declared, so of two faults in a script the first one
is complained about.
-/
namespace Patchbay.Script

open Text

inductive LexicalKind
  | plain
  /-- A plain function, which may be declared again in scripts that are not strict. -/
  | function
  /-- The name of all that a `catch` has caught, which a variable may have as well. -/
  | caught
  deriving DecidableEq, Inhabited, Repr

structure ScopeNames where
  /-- Whether the names are those of what a `catch` has caught, which its block may not declare anew. -/
  isCatch : Bool := false
  lexical : List (Name × LexicalKind) := []
  /-- Variables that are declared in or through this scope. -/
  vars : List Name := []
  params : List Name := []
  deriving Inhabited

structure Allowance where
  newTarget : Bool := false
  superMember : Bool := false
  superCall : Bool := false
  arguments : Bool := true
  deriving Inhabited

/-- What a function of a kind allows its code, within code that is allowed some things itself. -/
def FunctionKind.allows (outer : Allowance) : FunctionKind → Allowance
  | arrow => outer
  | normal => { newTarget := true }
  | method | getter | setter | baseConstructor => { newTarget := true, superMember := true }
  | derivedConstructor => { newTarget := true, superMember := true, superCall := true }
  | initializer => { newTarget := true, superMember := true, arguments := false }

/-- A statement around the current one at which a jump may end. -/
structure Enclosing where
  label : Option Name
  isLoop : Bool
  isSwitch : Bool := false
  deriving Inhabited

/-- The part of the state that belongs to the function under way. -/
structure Body where
  inFunction : Bool := false
  isInitializer : Bool := false
  isAsync : Bool := false
  isGenerator : Bool := false
  /-- Whether the parameters are under way, where the function can neither yield nor wait. -/
  inParams : Bool := false
  /-- Words that are no names here, besides those that never are. -/
  taken : List String := []
  allows : Allowance := {}
  usesArguments : Bool := false
  enclosing : List Enclosing := []
  scopes : List ScopeNames := [{}]
  vars : List Name := []
  deriving Inhabited

structure ParserState where
  source : Source
  token : Token
  lastEnd : Nat := 0
  strict : Bool
  body : Body := {}
  privates : List String := []
  deriving Inhabited

abbrev Parser := EStateM Complaint ParserState

namespace Parser

def complainAt {α : Type} (place : Place) (message : String) : Parser α :=
  throw (.wrong message place)

def complain {α : Type} (message : String) : Parser α := do
  complainAt (← get).token.place message

def current : Parser Token := return (← get).token

def advance : Parser Unit := do
  let s ← get
  match Lexer.token s.source s.strict s.token.stop with
  | .ok t => set { s with token := t, lastEnd := s.token.stop.index }
  | .error e => throw e

def following : Parser (Option Token) := do
  let s ← get
  return (Lexer.token s.source s.strict s.token.stop).toOption

def isMark (text : String) : Parser Bool := return (← current).isMark text

def isWord (text : String) : Parser Bool := return (← current).isWord text

def expectMark (text : String) : Parser Unit := do
  if ← isMark text then advance else complain ("expecting '" ++ text ++ "'")

def takeMark (text : String) : Parser Bool := do
  if ← isMark text then
    advance
    return true
  else return false

/-- A statement ends at a semicolon, before a brace, at the end or at a line end. -/
def expectEnd : Parser Unit := do
  let t ← current
  if t.isMark ";" then advance
  else if t.isFinish || t.isMark "\x7d" || t.afterLine then pure ()
  else complain "expecting ';'"

def unexpected {α : Type} : Parser α := do
  let s ← get
  complain ("unexpected token in expression: '" ++
    s.source.slice s.token.start s.token.stop.index ++ "'")

def sourceFrom (start : Nat) : Parser CodeUnits := do
  let s ← get
  return .ofString (s.source.slice start s.lastEnd)

def iterate {α β : Type} (step : α → Parser (α ⊕ β)) : Nat → α → Parser β
  | 0, _ => throw .tooDeep
  | fuel + 1, a => do
    match ← step a with
    | .inl a => iterate step fuel a
    | .inr b => return b

/-- Takes steps; each takes a token at least, so the length of the script bounds their number. -/
def loop {α β : Type} (start : α) (step : α → Parser (α ⊕ β)) : Parser β := do
  iterate step ((← get).source.size + 2) start

def isReserved (s : ParserState) (text : String) : Bool :=
  reservedWords.contains text || (s.strict && strictWords.contains text) || s.body.taken.contains text

def complainReserved {α : Type} (text : String) : Parser α :=
  complain ("'" ++ text ++ "' is a reserved identifier")

/-- The name that the current token is, if it is one. A reserved word written with escapes is
complained about. -/
def name? : Parser (Option String) := do
  let s ← get
  match s.token.kind with
  | .word text escaped =>
    if isReserved s text then
      if escaped then complainReserved text else return none
    else return some text
  | _ => return none

/-- The names that strict scripts may use but neither declare nor assign to. -/
def isGuarded (text : String) : Bool := text == "eval" || text == "arguments"

def noteName (text : String) : Parser Unit := do
  if text == "arguments" then
    if !(← get).body.allows.arguments then
      complain "'arguments' identifier is not allowed in class field initializer"
    modify fun s => { s with body := { s.body with usesArguments := true } }

def notePrivate (text : String) : Parser Unit :=
  modify fun s => { s with privates := if s.privates.contains text then s.privates else text :: s.privates }

def inScope {α : Type} (scope : ScopeNames) (body : Parser α) : Parser α := do
  modify fun s => { s with body := { s.body with scopes := scope :: s.body.scopes } }
  let a ← body
  modify fun s => { s with body := { s.body with scopes := s.body.scopes.drop 1 } }
  return a

def within {α : Type} (e : Enclosing) (body : Parser α) : Parser α := do
  modify fun s => { s with body := { s.body with enclosing := e :: s.body.enclosing } }
  let a ← body
  modify fun s => { s with body := { s.body with enclosing := s.body.enclosing.drop 1 } }
  return a

def redefinition : String := "invalid redefinition of lexical identifier"

def setScopes (scopes : List ScopeNames) : Parser Unit :=
  modify fun s => { s with body := { s.body with scopes := scopes } }

def addVar (n : Name) : Parser Unit :=
  modify fun s =>
    { s with body := { s.body with vars := if s.body.vars.contains n then s.body.vars else n :: s.body.vars } }

def declareLexical (n : Name) (kind : LexicalKind) : Parser Unit := do
  let s ← get
  match s.body.scopes with
  | [] => pure ()
  | scope :: outer =>
    let caught := outer.head?.any fun o => o.isCatch && (o.lexical.lookup n).isSome
    match scope.lexical.lookup n with
    | some earlier =>
      if s.strict || kind != .function || earlier != .function then complain redefinition
    | none =>
      if caught then complain redefinition
      else if outer.isEmpty && scope.params.contains n && kind != .function then
        complain "invalid redefinition of parameter name"
      else if scope.vars.contains n then
        complain (if s.body.inFunction then "invalid redefinition of a variable"
          else "invalid redefinition of global identifier")
      else setScopes ({ scope with lexical := (n, kind) :: scope.lexical } :: outer)

def declareVar (n : Name) : Parser Unit := do
  let s ← get
  let hides (scope : ScopeNames) : Bool := (scope.lexical.lookup n).any (· != .caught)
  if s.body.scopes.any hides then complain redefinition
  else
    setScopes (s.body.scopes.map fun scope => { scope with vars := n :: scope.vars })
    addVar n

def checkDeclared (text : String) : Parser Unit := do
  if (← get).strict && isGuarded text then complain "invalid variable name in strict mode"

def declare (kind : DeclarationKind) (text : String) : Parser Unit := do
  checkDeclared text
  match kind with
  | .var => declareVar (.ofString text)
  | .lexical | .const =>
    if text == "let" then complain "'let' is not a valid lexical identifier"
    declareLexical (.ofString text) .plain

def declareCaught (text : String) : Parser Unit := do
  checkDeclared text
  declareLexical (.ofString text) .caught

/-- Declares the function of a declaration. In a block it is lexical; the answer says whether it also
is a variable of the whole function. -/
def declareFunction (n : Name) (plain : Bool) : Parser Bool := do
  let s ← get
  match s.body.scopes with
  | [] => return false
  | [scope] =>
    if (scope.lexical.lookup n).isSome then
      complain (if s.body.inFunction then redefinition else "invalid redefinition of global identifier")
    else
      declareVar n
      return false
  | _ :: outer =>
    declareLexical n (if plain then .function else .plain)
    let hides (scope : ScopeNames) : Bool :=
      (scope.lexical.lookup n).any (· != .caught) || scope.params.contains n
    if s.strict || !plain || outer.any hides then return false
    else
      addVar n
      return true

def endsOperand (t : Token) : Bool :=
  match t.kind with
  | .number _ | .bigint _ | .string _ | .privateName _ => true
  | .template _ _ last => last
  | .word text escaped =>
    escaped || !reservedWords.contains text || ["null", "true", "false", "this", "super"].contains text
  | .mark text => [")", "]", "\x7d", "++", "--"].contains text
  | .finish => false

/-- What was found between brackets: the token behind them, and whether a semicolon stood directly
within them. -/
structure Ahead where
  next : Option Token
  semicolon : Bool

def skipBrackets (source : Source) (strict : Bool) :
    Nat → Token → (closers : List String) → Bool → Ahead
  | 0, _, _, semicolon => ⟨none, semicolon⟩
  | fuel + 1, t, closers, semicolon =>
    let next (regexpAllowed : Bool) (cursor : Cursor) : Option Token :=
      match Lexer.token source strict cursor with
      | .error _ => none
      | .ok u =>
        if regexpAllowed && (u.isMark "/" || u.isMark "/=") then
          match Lexer.regexp source u with
          | .ok (_, _, stop) => some { u with kind := .string default, stop := stop }
          | .error _ => none
        else some u
    let go (closers : List String) (semicolon : Bool) : Ahead :=
      match next (!endsOperand t) t.stop with
      | none => ⟨none, semicolon⟩
      | some u => skipBrackets source strict fuel u closers semicolon
    match t.kind with
    | .finish => ⟨none, semicolon⟩
    | .template _ _ last => if last then go closers semicolon else go ("`" :: closers) semicolon
    | .mark text =>
      if text == "(" then go (")" :: closers) semicolon
      else if text == "[" then go ("]" :: closers) semicolon
      else if text == "\x7b" then go ("\x7d" :: closers) semicolon
      else if text == "\x7d" && closers.head? == some "`" then
        match Lexer.template source t.stop false t.stop with
        | .ok u => skipBrackets source strict fuel u (closers.drop 1) semicolon
        | .error _ => ⟨none, semicolon⟩
      else if text == ")" || text == "]" || text == "\x7d" then
        if closers.head? == some text then
          if closers.length = 1 then ⟨next false t.stop, semicolon⟩
          else go (closers.drop 1) semicolon
        else ⟨none, semicolon⟩
      else go closers (semicolon || (text == ";" && closers.length = 1))
    | _ => go closers semicolon

def ahead : Parser Ahead := do
  let s ← get
  return skipBrackets s.source s.strict (s.source.size + 2) s.token [] false

/-- Whether the token behind the brackets that the current token opens is this mark. -/
def bracketsBefore (text : String) : Parser Bool := do
  return match (← ahead).next with
    | some t => t.isMark text
    | none => false

def paramsFollow : Parser Bool := do
  return (← ahead).next.any fun t => t.isMark "=>" && !t.afterLine

end Parser

end Patchbay.Script
