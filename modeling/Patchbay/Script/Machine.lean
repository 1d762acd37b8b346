import Patchbay.Script.Native
import Patchbay.Script.Tree
/-!
The state of the script engine: a heap of objects, the scopes of variables and the calls under way.
The prototypes of the language stand at fixed places of the heap, so they are found whatever a script
does to the names that lead to them. A computation either gives a result or throws a value.
-/
namespace Patchbay.Script

open Binary Text

/-- The prototypes of the language, in the order in which they stand at the start of the heap. -/
inductive Proto
  | object
  | function
  | list
  | string
  | number
  | boolean
  | symbol
  | bigint
  | error
  | evalError
  | rangeError
  | referenceError
  | syntaxFault
  | typeError
  | uriError
  | internalError
  | aggregateError
  | date
  | set
  | map
  | weakSet
  | weakMap
  | regexp
  | promise
  | buffer
  | view
  | typed
  | int8
  | uint8
  | clamped
  | int16
  | uint16
  | int32
  | uint32
  | bigInt64
  | bigUint64
  | float32
  | float64
  | iterator
  | listIterator
  | setIterator
  | mapIterator
  | stringIterator
  | generator
  | global
  deriving DecidableEq, Inhabited, Repr

namespace Proto

def all : List Proto :=
  [object, function, list, string, number, boolean, symbol, bigint, error, evalError, rangeError,
    referenceError, syntaxFault, typeError, uriError, internalError, aggregateError, date, set, map,
    weakSet, weakMap, regexp, promise, buffer, view, typed, int8, uint8, clamped, int16, uint16, int32,
    uint32, bigInt64, bigUint64, float32, float64, iterator, listIterator, setIterator, mapIterator,
    stringIterator, generator, global]

def ref (p : Proto) : Ref := p.ctorIdx

def ofError : ErrorKind → Proto
  | .error => error
  | .eval => evalError
  | .range => rangeError
  | .reference => referenceError
  | .syntaxFault => syntaxFault
  | .type => typeError
  | .uri => uriError
  | .internal => internalError
  | .aggregate => aggregateError

def ofElement : Element → Proto
  | .int8 => int8
  | .uint8 => uint8
  | .clamped => clamped
  | .int16 => int16
  | .uint16 => uint16
  | .int32 => int32
  | .uint32 => uint32
  | .bigInt64 => bigInt64
  | .bigUint64 => bigUint64
  | .float32 => float32
  | .float64 => float64

end Proto

/-- What a member of a class stands under: a key of a property, or the symbol of a private name. -/
inductive MemberName
  | key (k : Key)
  | secret (id : Nat)

/-- A field that a class gives to each of its instances, or to itself. -/
structure ClassField where
  name : MemberName
  value : Option Expr

abbrev Secrets := List (Nat × Property)

structure Closure where
  tree : Function
  scope : Nat
  /-- The object whose method the function is; `super` starts behind it. -/
  home : Option Ref
  /-- The private methods that a class gives to its instances. -/
  secrets : Secrets := []
  fields : List ClassField := []
  /-- Whether the body is that of a class that writes none. -/
  implicit : Bool := false

inductive Projection
  | keys
  | values
  | entries
  deriving DecidableEq, Repr

inductive Walk
  | list (target : Value)
  | set (target : Ref)
  | map (target : Ref)
  | string (s : CodeUnits)
  | known (items : List Value)
  deriving Repr

/-- What an object is besides its properties. -/
inductive Payload
  | plain
  /-- A list: its items from zero on, its length, and whether the length may change. -/
  | list (items : Array (Option Property)) (length : Nat) (resizable : Bool)
  | closure (c : Closure)
  | native (f : Native)
  | bound (target : Value) (this : Value) (args : List Value)
  | error
  | wrapper (v : Value)
  | set (items : Array (Option Value))
  | map (entries : Array (Option (Value × Value)))
  | date (time : Double)
  | regexp (source flags : CodeUnits)
  | buffer (bytes : Array UInt8)
  | typed (element : Element) (buffer : Ref) (offset length : Nat)
  | view (buffer : Ref) (offset length : Nat)
  | proxy (target handler : Ref) (callable : Bool)
  | promise
  | arguments
  | walk (w : Walk) (projection : Projection) (next : Nat)

instance : Inhabited Payload := ⟨.plain⟩

structure Obj where
  proto : Option Ref
  extensible : Bool := true
  /-- The properties in the order in which they were made. -/
  props : Array (Key × Property) := #[]
  payload : Payload := .plain
  secrets : Secrets := []
  deriving Inhabited

inductive BindingKind
  | variable
  | constant
  | itself
  deriving DecidableEq, Inhabited, Repr

/-- A variable; it has no value before its declaration is reached. -/
structure Binding where
  value : Option Value
  kind : BindingKind := .variable
  deriving Inhabited, Repr

structure Scope where
  outer : Option Nat
  names : List (Name × Binding) := []
  deriving Inhabited, Repr

/-- A call under way, and the place in it that was reached last. -/
structure Frame where
  name : CodeUnits
  isNative : Bool
  place : Place
  deriving Inhabited, Repr

structure Post where
  isError : Bool
  text : String
  deriving DecidableEq, Inhabited, Repr

structure Machine where
  heap : Array Obj := #[]
  /-- The scopes; the first one holds the lexical names of all scripts. -/
  scopes : Array Scope := #[{ outer := none }]
  symbols : Array (Option CodeUnits) := #[]
  registry : List (CodeUnits × Nat) := []
  frames : List Frame := []
  posts : List Post := []
  completion : Value := .undefined
  memoryLimit : Option Nat := none
  deriving Inhabited

/-- A computation of the engine: it may throw a value. -/
abbrev Run := EStateM Value Machine

inductive Flow
  | normal
  | returns (v : Value)
  | breaks (label : Option Name)
  | continues (label : Option Name)
  deriving Inhabited, Repr

/-- Where code runs: its scope, whether it is strict, and whether it is the top of a script. -/
structure Context where
  scope : Nat
  strict : Bool
  top : Bool
  deriving Inhabited, Repr

/-- The engine one level down: the means by which a definition runs the parts of a script, calls
functions and asks for what an object has of its own. -/
structure Engine where
  evaluate : Context → Expr → Run Value
  execute : Context → Stmt → Run Flow
  call : Value → Value → List Value → Run Value
  construct : Value → List Value → Value → Run Value
  own : Ref → Key → Run (Option Property)

def object (r : Ref) : Run Obj := return ((← get).heap[r]?).getD default

def modifyObject (r : Ref) (f : Obj → Obj) : Run Unit :=
  modify fun m => { m with heap := m.heap.modify r f }

def allocate (o : Obj) : Run Ref :=
  modifyGet fun m => (m.heap.size, { m with heap := m.heap.push o })

def newObject (proto : Proto) (payload : Payload := .plain) : Run Ref :=
  allocate { proto := some proto.ref, payload := payload }

def payload (r : Ref) : Run Payload := return (← object r).payload

def setPayload (r : Ref) (p : Payload) : Run Unit := modifyObject r fun o => { o with payload := p }

namespace Obj

def lookup? (o : Obj) (k : Key) : Option Property :=
  (o.props.find? fun entry => entry.1 == k).map Prod.snd

def insert (o : Obj) (k : Key) (p : Property) : Obj :=
  match o.props.findIdx? fun entry => entry.1 == k with
  | some i => { o with props := o.props.modify i fun entry => (entry.1, p) }
  | none => { o with props := o.props.push (k, p) }

def remove (o : Obj) (k : Key) : Obj :=
  { o with props := o.props.filter fun entry => entry.1 != k }

end Obj

def newList (items : List Value) : Run Ref :=
  let all := (items.map fun v => some (Property.plain v)).toArray
  newObject .list (.list all all.size true)

def newSymbol (description : Option CodeUnits) : Run Nat :=
  modifyGet fun m => (m.symbols.size, { m with symbols := m.symbols.push description })

def isCallable (v : Value) : Run Bool := do
  match v with
  | .object r =>
    return match ← payload r with
      | .closure _ | .native .. | .bound .. => true
      | .proxy _ _ callable => callable
      | _ => false
  | _ => return false

def messageLimit : Nat := 255

def fitting (room : Nat) : List Char → List Char
  | [] => []
  | c :: rest => if c.utf8Size ≤ room then c :: fitting (room - c.utf8Size) rest else []

/-- A message as the engine can hold it: it ends before a NUL and where its room does. -/
def boundedMessage (s : String) : String :=
  String.ofList (fitting messageLimit (s.toList.takeWhile fun c => c.toNat != 0))

def shownUnits (written : Nat) : List Nat → List Nat
  | [] => []
  | n :: rest =>
    if 58 ≤ written then []
    else
      let size := if n < 0x80 then 1 else if n < 0x800 then 2 else if n < 0x10000 then 3 else 6
      n :: shownUnits (written + size) rest

/-- A name within a message. One of ASCII is shown whole, another one up to a limit. -/
def shown (s : CodeUnits) : String :=
  if s.units.all (· < 0x80) then s.lossy
  else (CodeUnits.ofCodePoints (shownUnits 0 s.codePoints)).lossy

def shownKey (k : Key) : Run String := do
  match k with
  | .index n => return toString n
  | .text s => return shown s
  | .symbol id => return shown (((← get).symbols[id]?.join).getD default)

def Frame.line (f : Frame) : String :=
  let name := if f.name.isEmpty then "<anonymous>" else f.name.lossy
  if f.isNative then "    at " ++ name ++ " (native)\n"
  else "    at " ++ name ++ " (eval_script:" ++ toString f.place.line ++ ":" ++
    toString (f.place.column + 1) ++ ")\n"

def backtrace (frames : List Frame) : CodeUnits := .ofString (String.join (frames.map Frame.line))

def newError (kind : ErrorKind) (message : CodeUnits) (trace : CodeUnits) : Run Ref := do
  let r ← newObject (.ofError kind) .error
  modifyObject r fun o =>
    (o.insert (.named "message") (.hidden (.string message))).insert (.named "stack")
      (.hidden (.string trace))
  return r

def throwNew {α : Type} (kind : ErrorKind) (message : String) : Run α := do
  let trace := backtrace (← get).frames
  throw (.object (← newError kind (.ofString (boundedMessage message)) trace))

def throwType {α : Type} (message : String) : Run α := throwNew .type message

def throwRange {α : Type} (message : String) : Run α := throwNew .range message

def throwReference {α : Type} (message : String) : Run α := throwNew .reference message

def claimBytes (bytes : Nat) : Run Unit := do
  if ((← get).memoryLimit.any fun limit => limit < bytes) then throwNew .internal "out of memory"

def claimText (s : CodeUnits) : Run Value := do
  claimBytes s.length
  return .string s

def reach (place : Place) : Run Unit :=
  modify fun m =>
    match m.frames with
    | [] => m
    | f :: rest => { m with frames := { f with place := place } :: rest }

def withFrame {α : Type} (f : Frame) (body : Run α) : Run α := fun m =>
  let frames := m.frames
  match body { m with frames := f :: frames } with
  | .ok a m => .ok a { m with frames := frames }
  | .error v m => .error v { m with frames := frames }

def newScope (outer : Nat) (names : List (Name × Binding)) : Run Nat :=
  modifyGet fun m => (m.scopes.size, { m with scopes := m.scopes.push ⟨some outer, names⟩ })

/-- The innermost scope from `i` outward that has a name. Scopes stand behind those around them, so
the number of a scope bounds the search. -/
def findScope (m : Machine) (n : Name) : Nat → Nat → Option (Nat × Binding)
  | 0, _ => none
  | fuel + 1, i =>
    match m.scopes[i]? with
    | none => none
    | some s =>
      match s.names.lookup n with
      | some b => some (i, b)
      | none => s.outer.bind (findScope m n fuel)

def lookupScope (scope : Nat) (n : Name) : Run (Option (Nat × Binding)) :=
  return findScope (← get) n (scope + 1) scope

def rebind (n : Name) (b : Binding) : List (Name × Binding) → List (Name × Binding)
  | [] => [(n, b)]
  | (m, c) :: rest => if m == n then (n, b) :: rest else (m, c) :: rebind n b rest

def bindIn (scope : Nat) (n : Name) (b : Binding) : Run Unit :=
  modify fun m =>
    { m with scopes := m.scopes.modify scope fun s => { s with names := rebind n b s.names } }

end Patchbay.Script
