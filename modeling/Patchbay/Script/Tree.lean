import Patchbay.Script.Value
/-!
The trees of scripts: expressions, the patterns that take values apart, statements, functions and
classes. A tree keeps the places that tracebacks name.
-/
namespace Patchbay.Script

open Binary Text

/-- A place in a script: the line from one, and the column from zero. -/
structure Place where
  line : Nat
  column : Nat
  deriving DecidableEq, Inhabited, Repr

inductive UnaryOp
  | plus
  | minus
  | complement
  | not
  | void
  deriving DecidableEq, Repr

inductive BinaryOp
  | add
  | sub
  | mul
  | div
  | rem
  | pow
  | shl
  | sar
  | shr
  | and
  | or
  | xor
  | lt
  | gt
  | le
  | ge
  | looseEq
  | looseNe
  | strictEq
  | strictNe
  | instanceOf
  | isIn
  deriving DecidableEq, Repr

inductive LogicalOp
  | and
  | or
  | coalesce
  deriving DecidableEq, Repr

inductive FunctionKind
  | normal
  | arrow
  | method
  | getter
  | setter
  | baseConstructor
  | derivedConstructor
  | initializer
  deriving DecidableEq, Inhabited, Repr

inductive DeclarationKind
  | var
  | lexical
  | const
  deriving DecidableEq, Repr

inductive MemberKind
  | value
  | getter
  | setter
  deriving DecidableEq, Repr

/-- What is written of a function besides its parameters and its body. -/
structure Signature where
  name : Name
  kind : FunctionKind
  isAsync : Bool
  isGenerator : Bool
  strict : Bool
  /-- The variables that belong to the function as a whole. -/
  vars : List Name
  usesArguments : Bool
  length : Nat
  namesItself : Bool
  source : CodeUnits
  deriving Inhabited

mutual

inductive Expr
  | undefined
  | null
  | bool (b : Bool)
  | number (d : Double)
  | bigint (n : Int)
  | string (s : CodeUnits)
  /-- Texts with values between them; there is one text more than values. -/
  | template (texts : List CodeUnits) (parts : List Expr)
  /-- A template that is handed to a function; a text with a malformed escape has no meaning. -/
  | tagged (tag : Expr) (cooked : List (Option CodeUnits)) (raw : List CodeUnits) (parts : List Expr)
      (place : Place)
  | regexp (source flags : CodeUnits)
  | name (n : Name) (place : Place)
  | privateName (n : Name)
  | this
  | newTarget
  | list (items : List Expr)
  | hole
  /-- The items of a value, where a list or arguments are written. -/
  | spread (e : Expr)
  | object (members : List Member)
  | function (f : Function)
  | classExpr (c : Class)
  | unary (op : UnaryOp) (e : Expr)
  | typeOf (e : Expr)
  | delete (e : Expr)
  | update (increment before : Bool) (target : Expr)
  | binary (op : BinaryOp) (a b : Expr)
  | logical (op : LogicalOp) (a b : Expr)
  | assign (target : Pattern) (value : Expr)
  | assignOp (op : BinaryOp) (target value : Expr)
  | assignLogical (op : LogicalOp) (target value : Expr)
  | conditional (test yes no : Expr)
  | comma (a b : Expr)
  | member (object : Expr) (key : Name) (place : Place)
  | element (object key : Expr) (place : Place)
  | privateMember (object : Expr) (n : Name) (place : Place)
  | privateIn (n : Name) (object : Expr)
  | superMember (key : Expr) (place : Place)
  | call (callee : Expr) (args : List Expr) (place : Place)
  | superCall (args : List Expr) (place : Place)
  | new (callee : Expr) (args : List Expr) (place : Place)
  | importCall (specifier : Expr)
  /-- A chain of accesses that gives up at the first missing object. -/
  | chain (e : Expr)
  /-- The object of an access that is skipped when it is missing. -/
  | optional (object : Expr)
  | yield (e : Option Expr) (delegate : Bool)
  | await (e : Expr)

inductive Function
  | mk (signature : Signature) (params : List Pattern) (body : List Stmt)

/-- A class as it is written; a heritage is the class that it extends. -/
inductive Class
  | mk (name : Name) (source : CodeUnits) (heritage : Option Expr) (maker : Option Function)
      (members : List Member)

/-- A member of an object literal or of a class; the flag says whether it belongs to the class
itself. -/
inductive Member
  | field (own : Bool) (key : Expr) (value : Option Expr)
  | method (own : Bool) (key : Expr) (kind : MemberKind) (f : Function)
  | spread (e : Expr)
  | proto (value : Expr)
  | block (body : Function)

/-- What takes a value apart; a leaf is a name or an access that takes it whole. -/
inductive Pattern
  | leaf (target : Expr)
  /-- Takes the value of the expression where there is none. -/
  | orElse (p : Pattern) (e : Expr)
  | hole
  | rest (p : Pattern)
  | list (items : List Pattern)
  | object (fields : List Pattern)
  | field (key : Expr) (p : Pattern)

inductive Stmt
  | empty
  | expr (e : Expr)
  | declare (kind : DeclarationKind) (target : Pattern) (value : Option Expr)
  | group (body : List Stmt)
  /-- A function that the block or body around it makes when it is entered. The flag says whether
  reaching it also sets the variable of that name of the whole function. -/
  | function (f : Function) (outward : Bool)
  | classDecl (c : Class)
  | returns (e : Option Expr)
  | throws (e : Expr)
  | branch (test : Expr) (yes : Stmt) (no : Option Stmt)
  | block (body : List Stmt)
  | whileLoop (test : Expr) (body : Stmt)
  | doLoop (body : Stmt) (test : Expr)
  | forLoop (init : Option Stmt) (test update : Option Expr) (body : Stmt)
  | forIn (kind : Option DeclarationKind) (target : Pattern) (object : Expr) (body : Stmt)
  | forOf (kind : Option DeclarationKind) (target : Pattern) (object : Expr) (body : Stmt)
  | breaks (label : Option Name)
  | continues (label : Option Name)
  | labelled (label : Name) (body : Stmt)
  | switch (value : Expr) (cases : List Stmt)
  /-- A case of a switch; without a test it is the default. -/
  | branchCase (test : Option Expr) (body : List Stmt)
  | attempt (body : List Stmt) (param : Option Pattern) (handler finalizer : Option Stmt)

end

instance : Inhabited Expr := ⟨.undefined⟩

instance : Inhabited Stmt := ⟨.empty⟩

instance : Inhabited Pattern := ⟨.hole⟩

instance : Inhabited Function := ⟨.mk default [] []⟩

def Function.signature : Function → Signature
  | .mk signature _ _ => signature

def Function.params : Function → List Pattern
  | .mk _ params _ => params

def Function.body : Function → List Stmt
  | .mk _ _ body => body

def Function.asExpression (f : Function) : Function :=
  .mk { f.signature with namesItself := !f.signature.name.isEmpty } f.params f.body

def Function.rename (f : Function) (n : Name) : Function :=
  .mk { f.signature with name := n } f.params f.body

def Class.name : Class → Name
  | .mk n _ _ _ _ => n

/-- A script: its statements, and the variables that they declare for all scripts. -/
structure Program where
  body : List Stmt
  vars : List Name
  strict : Bool

mutual

def Pattern.names : Pattern → List Name
  | .leaf (.name n _) => [n]
  | .leaf _ | .hole => []
  | .orElse p _ => p.names
  | .rest p => p.names
  | .field _ p => p.names
  | .list items => namesOfAll items
  | .object fields => namesOfAll fields

def namesOfAll : List Pattern → List Name
  | [] => []
  | p :: rest => p.names ++ namesOfAll rest

end

mutual

/-- Whether taking a value apart runs expressions: defaults, or keys that are not plain names. -/
def Pattern.asks : Pattern → Bool
  | .leaf _ | .hole => false
  | .orElse _ _ => true
  | .rest p => p.asks
  | .field (.string _) p => p.asks
  | .field _ _ => true
  | .list items => anyAsks items
  | .object fields => anyAsks fields

def anyAsks : List Pattern → Bool
  | [] => false
  | p :: rest => p.asks || anyAsks rest

end

end Patchbay.Script
