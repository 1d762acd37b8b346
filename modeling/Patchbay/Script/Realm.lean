import Patchbay.Script.Evaluate.Call
/-!
The state in which every namespace starts: the prototypes in their places, the built-in functions on
them, and the global names of the language.
-/
namespace Patchbay.Script

open Binary Text

namespace Realm

def parentOf : Proto → Option Proto
  | .object => none
  | .evalError | .rangeError | .referenceError | .syntaxFault | .typeError | .uriError | .internalError
  | .aggregateError => some .error
  | .int8 | .uint8 | .clamped | .int16 | .uint16 | .int32 | .uint32 | .bigInt64 | .bigUint64
  | .float32 | .float64 => some .typed
  | .listIterator | .setIterator | .mapIterator | .stringIterator | .generator => some .iterator
  | _ => some .object

def payloadOf : Proto → Payload
  | .function => .native (.function .itself)
  | .list => .list #[] 0 true
  | .string => .wrapper (.string default)
  | .number => .wrapper (.number .zero)
  | .boolean => .wrapper (.bool false)
  | _ => .plain

def protoObject (p : Proto) : Obj :=
  { proto := (parentOf p).map Proto.ref, payload := payloadOf p }

def put (target : Ref) (name : String) (v : Value) : Run Unit := store target (.named name) (.hidden v)

def functionOf (name : String) (arity : Nat) (f : Native) : Run Ref :=
  allocate
    { proto := some Proto.function.ref
      props := #[(.named "length", .constant (.ofNat arity)), (.named "name", .constant (.ofString name))]
      payload := .native f }

def install (target : Ref) (all : List (Entry Native)) : Run Unit :=
  all.forM fun entry => do put target entry.name (.object (← functionOf entry.name entry.arity entry.fn))

def installIterator (target : Ref) (names : List String) (f : Native) : Run Unit := do
  let r ← functionOf (names.headD "[Symbol.iterator]") 0 f
  names.forM fun name => put target name (.object r)
  store target (.symbol symbolIterator) (.hidden (.object r))

def installGetter (target : Ref) (name : String) (f : Native) : Run Unit := do
  let r ← functionOf ("get " ++ name) 0 f
  store target (.named name) ⟨.accessor (.object r) .undefined, false, true⟩

def tag (target : Ref) (name : String) : Run Unit :=
  store target (.symbol symbolToStringTag) (.constant (.ofString name))

def maker (name : String) (arity : Nat) (f : Native) (p : Proto) : Run Ref := do
  let r ← functionOf name arity f
  store r (.named "prototype") (.fixed (.object p.ref))
  put p.ref "constructor" (.object r)
  return r

def globalMaker (name : String) (arity : Nat) (f : Native) (p : Proto) : Run Ref := do
  let r ← maker name arity f p
  put Proto.global.ref name (.object r)
  return r

def inherit (r parent : Ref) : Run Unit := modifyObject r fun o => { o with proto := some parent }

def installObjects : Run Unit := do
  let r ← globalMaker "Object" 1 (.object .make) .object
  install r (entriesOf .object ObjectFn.statics)
  install Proto.object.ref (entriesOf .object ObjectFn.methods)
  let getter ← functionOf "get __proto__" 0 (.object .protoGet)
  let setter ← functionOf "set __proto__" 1 (.object .protoSet)
  store Proto.object.ref (.named "__proto__") ⟨.accessor (.object getter) (.object setter), false, true⟩

def installFunctions : Run Unit := do
  modifyObject Proto.function.ref fun o => { o with props := #[(.named "length", .constant (.ofNat 0)),
    (.named "name", .constant (.string default))] }
  let _ ← globalMaker "Function" 1 (.function .make) .function
  install Proto.function.ref (entriesOf .function FunctionFn.methods)
  let r ← functionOf "[Symbol.hasInstance]" 1 (.function .hasInstance)
  store Proto.function.ref (.symbol symbolHasInstance) (.fixed (.object r))

def installErrors : Run Unit := do
  let first ← globalMaker "Error" 1 (.error (.make .error)) .error
  install Proto.error.ref (entriesOf .error ErrorFn.methods)
  (ErrorKind.all.filter (· != .error)).forM fun kind => do
    let r ← globalMaker kind.name (if kind == .aggregate then 2 else 1) (.error (.make kind))
      (.ofError kind)
    inherit r first
  ErrorKind.all.forM fun kind => do
    put (Proto.ofError kind).ref "name" (.ofString kind.name)
    put (Proto.ofError kind).ref "message" (.string default)

def installLists : Run Unit := do
  let r ← globalMaker "Array" 1 (.list .make) .list
  install r (entriesOf .list ListFn.statics)
  install Proto.list.ref (entriesOf .list ListFn.methods)
  let f ← functionOf "toString" 0 (.list .toString)
  put Proto.list.ref "toString" (.object f)
  put Proto.typed.ref "toString" (.object f)
  installIterator Proto.list.ref ["values"] (.list .values)

def installTexts : Run Unit := do
  let r ← globalMaker "String" 1 (.string .make) .string
  install r (entriesOf .string StringFn.statics)
  install Proto.string.ref (entriesOf .string StringFn.methods)
  installIterator Proto.string.ref [] (.string .iterator)

def installNumbers : Run Unit := do
  let r ← globalMaker "Number" 1 (.number .make) .number
  install r (entriesOf .number NumberFn.statics)
  install Proto.number.ref (entriesOf .number NumberFn.methods)
  install Proto.global.ref (entriesOf .number NumberFn.globals)
  (entriesOf .number NumberFn.shared).forM fun entry => do
    let f ← functionOf entry.name entry.arity entry.fn
    put r entry.name (.object f)
    put Proto.global.ref entry.name (.object f)
  let constants : List (String × Double) :=
    [("MAX_VALUE", ⟨0x7FEFFFFFFFFFFFFF⟩), ("MIN_VALUE", ⟨1⟩), ("NaN", .nan),
      ("NEGATIVE_INFINITY", Double.infinity.neg), ("POSITIVE_INFINITY", .infinity),
      ("EPSILON", ⟨0x3CB0000000000000⟩), ("MAX_SAFE_INTEGER", .ofInt 9007199254740991),
      ("MIN_SAFE_INTEGER", .ofInt (-9007199254740991))]
  constants.forM fun (name, d) => store r (.named name) (.fixed (.number d))
  let _ ← globalMaker "Boolean" 1 (.boolean .make) .boolean
  install Proto.boolean.ref (entriesOf .boolean BooleanFn.methods)
  let b ← globalMaker "BigInt" 1 (.bigint .make) .bigint
  install b (entriesOf .bigint BigIntFn.statics)
  install Proto.bigint.ref (entriesOf .bigint BigIntFn.methods)
  tag Proto.bigint.ref "BigInt"
  let math ← newObject .object
  put Proto.global.ref "Math" (.object math)
  install math (entriesOf .math MathFn.members)
  MathFn.constants.forM fun (name, x) => store math (.named name) (.fixed (.number (.ofFloat x)))
  tag math "Math"

def installSymbols : Run Unit := do
  modify fun m => { m with symbols := (wellKnownSymbols.map fun s => some (.ofString s)).toArray }
  let r ← globalMaker "Symbol" 0 (.symbol .make) .symbol
  install r (entriesOf .symbol SymbolFn.statics)
  install Proto.symbol.ref (entriesOf .symbol SymbolFn.methods)
  installGetter Proto.symbol.ref "description" (.symbol .description)
  wellKnownSymbols.zipIdx.forM fun (name, id) =>
    store r (.named (String.ofList (name.toList.drop 7))) (.fixed (.symbol id))
  let f ← functionOf "[Symbol.toPrimitive]" 1 (.symbol .toPrimitive)
  store Proto.symbol.ref (.symbol symbolToPrimitive) (.constant (.object f))
  tag Proto.symbol.ref "Symbol"

def installDates : Run Unit := do
  let r ← globalMaker "Date" 7 (.date .make) .date
  install r (entriesOf .date DateFn.statics)
  install Proto.date.ref (entriesOf .date DateFn.methods)
  let f ← functionOf "[Symbol.toPrimitive]" 1 (.date .toPrimitive)
  store Proto.date.ref (.symbol symbolToPrimitive) (.constant (.object f))

def installCollections : Run Unit := do
  let _ ← globalMaker "Set" 0 (.set .make) .set
  install Proto.set.ref (entriesOf .set SetFn.methods)
  installGetter Proto.set.ref "size" (.set .size)
  installIterator Proto.set.ref ["values", "keys"] (.set .values)
  tag Proto.set.ref "Set"
  let _ ← globalMaker "Map" 0 (.map .make) .map
  install Proto.map.ref (entriesOf .map MapFn.methods)
  installGetter Proto.map.ref "size" (.map .size)
  installIterator Proto.map.ref ["entries"] (.map .entries)
  tag Proto.map.ref "Map"
  let _ ← globalMaker "WeakSet" 0 (.misc .weakSet) .weakSet
  tag Proto.weakSet.ref "WeakSet"
  let _ ← globalMaker "WeakMap" 0 (.misc .weakMap) .weakMap
  tag Proto.weakMap.ref "WeakMap"
  installIterator Proto.iterator.ref [] (.iterator .itself)
  let walks : List (Proto × String) := [(.listIterator, "Array Iterator"), (.setIterator, "Set Iterator"),
    (.mapIterator, "Map Iterator"), (.stringIterator, "String Iterator"), (.generator, "Generator")]
  walks.forM fun (p, name) => do
    install p.ref (entriesOf .iterator IteratorFn.methods)
    tag p.ref name

def installBytes : Run Unit := do
  let r ← globalMaker "ArrayBuffer" 1 (.buffer .make) .buffer
  install r (entriesOf .buffer BufferFn.statics)
  install Proto.buffer.ref (entriesOf .buffer BufferFn.methods)
  installGetter Proto.buffer.ref "byteLength" (.buffer .byteLength)
  tag Proto.buffer.ref "ArrayBuffer"
  let base ← maker "TypedArray" 0 (.typed .abstractMake) .typed
  install base (entriesOf .typed TypedFn.statics)
  install Proto.typed.ref (entriesOf .typed TypedFn.methods)
  installIterator Proto.typed.ref ["values"] (.typed .values)
  TypedFn.getters.forM fun (name, f) => installGetter Proto.typed.ref name (.typed f)
  let f ← functionOf "get [Symbol.toStringTag]" 0 (.typed .tag)
  store Proto.typed.ref (.symbol symbolToStringTag) ⟨.accessor (.object f) .undefined, false, true⟩
  Element.all.forM fun element => do
    let p := Proto.ofElement element
    let r ← globalMaker (element.name ++ "Array") 3 (.typed (.make element)) p
    inherit r base
    store r (.named "BYTES_PER_ELEMENT") (.fixed (.ofNat element.size))
    store p.ref (.named "BYTES_PER_ELEMENT") (.fixed (.ofNat element.size))
  let _ ← globalMaker "DataView" 1 (.view .make) .view
  install Proto.view.ref (entriesOf .view ViewFn.methods)
  ViewFn.getters.forM fun (name, f) => installGetter Proto.view.ref name (.view f)
  tag Proto.view.ref "DataView"

def installOthers : Run Unit := do
  let p ← functionOf "Proxy" 2 (.reflect .proxy)
  put Proto.global.ref "Proxy" (.object p)
  let reflect ← newObject .object
  put Proto.global.ref "Reflect" (.object reflect)
  install reflect (entriesOf .reflect ReflectFn.members)
  tag reflect "Reflect"
  let r ← globalMaker "Promise" 1 (.promise .make) .promise
  install r (entriesOf .promise PromiseFn.statics)
  install Proto.promise.ref (entriesOf .promise PromiseFn.methods)
  tag Proto.promise.ref "Promise"
  let _ ← globalMaker "RegExp" 2 (.misc .regexp) .regexp
  install Proto.regexp.ref [⟨"toString", 0, .misc .regexpToString⟩]
  install Proto.global.ref [⟨"eval", 1, .misc .eval⟩]

def installConstants : Run Unit := do
  let constants : List (String × Value) := [("Infinity", .number .infinity), ("NaN", .nan),
    ("undefined", .undefined)]
  constants.forM fun (name, v) => store Proto.global.ref (.named name) (.fixed v)
  put Proto.global.ref "globalThis" globalValue

def hostFunction (f : HostFn) : Run Value :=
  return .object (← allocate
    { proto := some Proto.function.ref
      props := #[(.named "length", .constant (.ofNat 1))]
      payload := .native (.host f) })

def build : Run Unit := do
  Proto.all.forM fun p => do
    let _ ← allocate (protoObject p)
  installObjects
  installFunctions
  installErrors
  installLists
  installTexts
  installNumbers
  installSymbols
  installDates
  installCollections
  installBytes
  installOthers
  installConstants
  create Proto.global.ref (.named "print") (← hostFunction .post)

end Realm

def Machine.initial : Machine :=
  match Realm.build {} with
  | .ok _ m | .error _ m => m

end Patchbay.Script
