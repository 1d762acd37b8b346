/-!
The built-in functions of the language, family by family. They are named here, ahead of the heap that
holds them, and defined in the modules of their families.
-/
namespace Patchbay.Script

inductive ErrorKind
  | error
  | eval
  | range
  | reference
  | syntaxFault
  | type
  | uri
  | internal
  | aggregate
  deriving DecidableEq, Inhabited, Repr

def ErrorKind.all : List ErrorKind :=
  [error, eval, range, reference, syntaxFault, type, uri, internal, aggregate]

def ErrorKind.name : ErrorKind → String
  | error => "Error"
  | eval => "EvalError"
  | range => "RangeError"
  | reference => "ReferenceError"
  | syntaxFault => "SyntaxError"
  | type => "TypeError"
  | uri => "URIError"
  | internal => "InternalError"
  | aggregate => "AggregateError"

inductive Element
  | int8
  | uint8
  | clamped
  | int16
  | uint16
  | int32
  | uint32
  | bigInt64
  | bigUint64
  | float32
  | float64
  deriving DecidableEq, Inhabited, Repr

namespace Element

def all : List Element :=
  [int8, uint8, clamped, int16, uint16, int32, uint32, bigInt64, bigUint64, float32, float64]

/-- The name of the elements, as the names of their arrays and of accesses to views spell it. -/
def name : Element → String
  | int8 => "Int8"
  | uint8 => "Uint8"
  | clamped => "Uint8Clamped"
  | int16 => "Int16"
  | uint16 => "Uint16"
  | int32 => "Int32"
  | uint32 => "Uint32"
  | bigInt64 => "BigInt64"
  | bigUint64 => "BigUint64"
  | float32 => "Float32"
  | float64 => "Float64"

def size : Element → Nat
  | int8 | uint8 | clamped => 1
  | int16 | uint16 => 2
  | int32 | uint32 | float32 => 4
  | bigInt64 | bigUint64 | float64 => 8

def isBig : Element → Bool
  | bigInt64 | bigUint64 => true
  | _ => false

end Element

inductive ObjectFn
  | make | keys | values | entries | assign | create | defineProperty | defineProperties
  | getPrototypeOf | setPrototypeOf | freeze | isFrozen | seal_ | isSealed | preventExtensions
  | isExtensible | getOwnPropertyNames | getOwnPropertySymbols | getOwnPropertyDescriptor
  | getOwnPropertyDescriptors | is | fromEntries | hasOwn
  | toString | toLocaleString | valueOf | hasOwnProperty | isPrototypeOf | propertyIsEnumerable
  | protoGet | protoSet
  deriving DecidableEq, Inhabited, Repr

inductive FunctionFn
  | make | itself | call | apply | bind | toString | hasInstance
  deriving DecidableEq, Inhabited, Repr

inductive ErrorFn
  | make (kind : ErrorKind) | toString
  deriving DecidableEq, Inhabited, Repr

inductive ListFn
  | make | isArray | of_ | from_
  | push | pop | shift | unshift | slice | splice | concat | join | toString | reverse
  | indexOf | lastIndexOf | includes | find | findIndex | findLast | findLastIndex
  | map | filter | forEach | reduce | reduceRight | some | every | sort | fill
  | keys | values | entries | flat | flatMap | at_ | copyWithin
  deriving DecidableEq, Inhabited, Repr

inductive StringFn
  | make | fromCharCode | fromCodePoint | raw
  | charAt | charCodeAt | codePointAt | indexOf | lastIndexOf | includes | startsWith | endsWith
  | slice | substring | substr | toUpperCase | toLowerCase | trim | trimStart | trimEnd
  | padStart | padEnd | repeat_ | split | concat | replace | replaceAll | at_ | toString | valueOf
  | localeCompare | normalize | iterator
  deriving DecidableEq, Inhabited, Repr

inductive NumberFn
  | make | isInteger | isFinite | isNaN | isSafeInteger | parseFloat | parseInt
  | toString | toLocaleString | toFixed | valueOf | globalIsNaN | globalIsFinite
  deriving DecidableEq, Inhabited, Repr

inductive BooleanFn
  | make | toString | valueOf
  deriving DecidableEq, Inhabited, Repr

inductive SymbolFn
  | make | for_ | keyFor | toString | valueOf | description | toPrimitive
  deriving DecidableEq, Inhabited, Repr

inductive BigIntFn
  | make | asIntN | asUintN | toString | valueOf
  deriving DecidableEq, Inhabited, Repr

inductive MathFn
  | abs | floor | ceil | round | trunc | sign | sqrt | cbrt | max | min | pow | exp | expm1 | log
  | log2 | log10 | log1p | sin | cos | tan | asin | acos | atan | atan2 | sinh | cosh | tanh
  | hypot | imul | fround | clz32 | random
  deriving DecidableEq, Inhabited, Repr

inductive DateFn
  | make | now | parse | utc | valueOf | toISOString | toString | toJSON | toPrimitive
  /-- A part of a time, by its place among year, month, day, hour, minute, second, fraction and weekday. -/
  | part (n : Nat)
  deriving DecidableEq, Inhabited, Repr

inductive SetFn
  | make | has | add | delete | clear | size | forEach | values | entries
  deriving DecidableEq, Inhabited, Repr

inductive MapFn
  | make | has | get | set | delete | clear | size | forEach | keys | values | entries
  deriving DecidableEq, Inhabited, Repr

inductive BufferFn
  | make | isView | byteLength | slice
  deriving DecidableEq, Inhabited, Repr

inductive TypedFn
  | abstractMake | make (element : Element) | of_ | from_ | length | byteLength | byteOffset | buffer | tag
  | subarray | set | slice | map | filter | forEach | fill | join | indexOf | includes | reduce
  | some | every | find | findIndex | reverse | sort | at_ | keys | values | entries
  deriving DecidableEq, Inhabited, Repr

inductive ViewFn
  | make | byteLength | byteOffset | buffer | get (element : Element) | set (element : Element)
  deriving DecidableEq, Inhabited, Repr

inductive ReflectFn
  | proxy | apply | construct | defineProperty | deleteProperty | get | set | has | ownKeys
  | getPrototypeOf | setPrototypeOf | isExtensible | preventExtensions | getOwnPropertyDescriptor
  deriving DecidableEq, Inhabited, Repr

inductive PromiseFn
  | make | resolve | reject | then_ | catch_ | finally_ | settle
  deriving DecidableEq, Inhabited, Repr

inductive IteratorFn
  | itself | next
  deriving DecidableEq, Inhabited, Repr

/-- Functions of the host: what they post, and whether as an error. -/
inductive HostFn
  | post | error
  deriving DecidableEq, Inhabited, Repr

inductive MiscFn
  | regexp | regexpToString | weakSet | weakMap | eval
  deriving DecidableEq, Inhabited, Repr

inductive Native
  | object (f : ObjectFn)
  | function (f : FunctionFn)
  | error (f : ErrorFn)
  | list (f : ListFn)
  | string (f : StringFn)
  | number (f : NumberFn)
  | boolean (f : BooleanFn)
  | symbol (f : SymbolFn)
  | bigint (f : BigIntFn)
  | math (f : MathFn)
  | date (f : DateFn)
  | set (f : SetFn)
  | map (f : MapFn)
  | buffer (f : BufferFn)
  | typed (f : TypedFn)
  | view (f : ViewFn)
  | reflect (f : ReflectFn)
  | promise (f : PromiseFn)
  | iterator (f : IteratorFn)
  | host (f : HostFn)
  | misc (f : MiscFn)
  deriving DecidableEq, Inhabited, Repr

def Native.isMaker : Native → Bool
  | object .make | function .make | error (.make _) | list .make | string .make | number .make
  | boolean .make | symbol .make | date .make | set .make | map .make | buffer .make
  | typed .abstractMake | typed (.make _) | view .make | reflect .proxy | promise .make
  | misc .regexp | misc .weakSet | misc .weakMap => true
  | _ => false

end Patchbay.Script
