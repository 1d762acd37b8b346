import Patchbay.Script.Builtin.List
import Patchbay.Text.Case
/-!
Functions on texts. Positions count sixteen-bit units.
-/
namespace Patchbay.Script

open Binary Text

namespace StringFn

def statics : List (String × Nat × StringFn) :=
  [("fromCharCode", 1, fromCharCode), ("fromCodePoint", 1, fromCodePoint), ("raw", 1, raw)]

def methods : List (String × Nat × StringFn) :=
  [("at", 1, at_), ("charCodeAt", 1, charCodeAt), ("charAt", 1, charAt), ("concat", 1, concat),
    ("codePointAt", 1, codePointAt), ("indexOf", 1, indexOf), ("lastIndexOf", 1, lastIndexOf),
    ("includes", 1, includes), ("endsWith", 1, endsWith), ("startsWith", 1, startsWith),
    ("split", 2, split), ("substring", 2, substring), ("substr", 2, substr), ("slice", 2, slice),
    ("repeat", 1, repeat_), ("replace", 2, replace), ("replaceAll", 2, replaceAll),
    ("padEnd", 1, padEnd), ("padStart", 1, padStart), ("trim", 0, trim), ("trimEnd", 0, trimEnd),
    ("trimStart", 0, trimStart), ("toString", 0, toString), ("valueOf", 0, valueOf),
    ("localeCompare", 1, localeCompare), ("toLowerCase", 0, toLowerCase),
    ("toUpperCase", 0, toUpperCase), ("toLocaleLowerCase", 0, toLowerCase),
    ("toLocaleUpperCase", 0, toUpperCase), ("normalize", 0, normalize)]

end StringFn

def isBlankUnit (u : UInt16) : Bool := isScriptBlank u.toNat || endsLine u.toNat

def trimUnits (atStart atEnd : Bool) (s : CodeUnits) : CodeUnits :=
  let units := s.units.toList
  let units := if atStart then units.dropWhile isBlankUnit else units
  let units := if atEnd then (units.reverse.dropWhile isBlankUnit).reverse else units
  ⟨units.toArray⟩

def fillerOf (filler : CodeUnits) (length : Nat) : CodeUnits :=
  if filler.isEmpty then default
  else ⟨((List.range length).map fun n => (filler.units[n % filler.length]?).getD 0).toArray⟩

def repeatText (s : CodeUnits) (count : Nat) : CodeUnits := ⟨(List.replicate count s.units).toArray.flatten⟩

def occurrences (s needle : CodeUnits) : Nat → Nat → List Nat
  | 0, _ => []
  | fuel + 1, start =>
    match s.indexOf? needle start with
    | none => []
    | some n => n :: occurrences s needle fuel (n + max 1 needle.length)

def splitText (s separator : CodeUnits) : List CodeUnits :=
  if separator.isEmpty then (List.range s.length).map fun n => s.extract n (n + 1)
  else
    let places := occurrences s separator (s.length + 1) 0
    let starts := 0 :: places.map (· + separator.length)
    let stops := places ++ [s.length]
    starts.zipWith s.extract stops

def expandReplacement (s matched : CodeUnits) (place : Nat) : List UInt16 → List UInt16
  | 0x24 :: 0x24 :: rest => 0x24 :: expandReplacement s matched place rest
  | 0x24 :: 0x26 :: rest => matched.units.toList ++ expandReplacement s matched place rest
  | 0x24 :: 0x60 :: rest =>
    (s.extract 0 place).units.toList ++ expandReplacement s matched place rest
  | 0x24 :: 0x27 :: rest =>
    (s.extract (place + matched.length) s.length).units.toList ++ expandReplacement s matched place rest
  | u :: rest => u :: expandReplacement s matched place rest
  | [] => []

def replaceText (i : Invocation) (s needle : CodeUnits) (all : Bool) : Run Value := do
  let e := i.engine
  let places := occurrences s needle (s.length + 1) 0
  let places := if all then places else places.take 1
  let f := i.arg 1
  let fixed ← if ← isCallable f then pure none else some <$> toText e f
  let mut result : CodeUnits := default
  let mut done := 0
  for place in places do
    let part ← match fixed with
      | some text => pure ⟨(expandReplacement s needle place text.units.toList).toArray⟩
      | none => do toText e (← i.apply f .undefined [.string needle, .ofNat place, .string s])
    result := result ++ s.extract done place ++ part
    done := place + needle.length
  claimText (result ++ s.extract done s.length)

def thisText (i : Invocation) : Run CodeUnits := do
  if i.this.isNullish then throwType "null or undefined are forbidden" else toText i.engine i.this

def ownText (v : Value) : Run Value := do
  match v with
  | .string s => return .string s
  | .object r =>
    match ← payload r with
    | .wrapper (.string s) => return .string s
    | _ => throwType "not a string"
  | _ => throwType "not a string"

def clampedArg (i : Invocation) (n length default : Nat) : Run Nat := do
  match i.arg n with
  | .undefined => return default
  | v => return clampIndex (← toInteger i.engine v) length

def unitAt (s : CodeUnits) (d : Double) : Option UInt16 :=
  match d.toInt? with
  | some n => if 0 ≤ n then s.units[n.toNat]? else none
  | none => none

def pad (i : Invocation) (s : CodeUnits) (atStart : Bool) : Run Value := do
  let length ← toLength i.engine (i.arg 0)
  let filler ← match i.arg 1 with
    | .undefined => pure (CodeUnits.ofString " ")
    | v => toText i.engine v
  if length ≤ s.length || filler.isEmpty then return .string s
  if 1073741823 < length then throwRange "invalid string length"
  claimBytes length
  let more := fillerOf filler (length - s.length)
  return .string (if atStart then more ++ s else s ++ more)

def makeText (i : Invocation) : Run Value := do
  let s ← match i.args with
    | [] => pure default
    | v :: _ =>
      match i.target, v with
      | none, .symbol id =>
        let d := ((← get).symbols[id]?.join).getD default
        pure (.ofString "Symbol(" ++ d ++ .ofString ")")
      | _, v => toText i.engine v
  if i.target.isSome then i.make .string (.wrapper (.string s)) else return .string s

def StringFn.run (f : StringFn) (i : Invocation) : Run Value := do
  let e := i.engine
  match f with
  | make => makeText i
  | fromCharCode =>
    let units ← i.args.mapM fun v => return (wrapUnsigned 16 (← toNumber e v).toIntTrunc).toNat.toUInt16
    return .string ⟨units.toArray⟩
  | fromCodePoint =>
    let points ← i.args.mapM fun v => do
      match (← toNumber e v).toInt? with
      | some n => if 0 ≤ n && n ≤ 0x10FFFF then pure n.toNat else throwRange "invalid code point"
      | none => throwRange "invalid code point"
    return .string (.ofCodePoints points)
  | raw =>
    let r ← toObject (← getValue e (i.arg 0) (.named "raw"))
    let parts ← (← itemsOfObject e r).mapM (toText e)
    let values ← (i.args.drop 1).mapM (toText e)
    let pieces := parts.zipIdx.map fun (part, n) =>
      if n + 1 < parts.length then part ++ values.getD n default else part
    claimText (pieces.foldl (· ++ ·) default)
  | toString | valueOf => ownText i.this
  | f =>
    let s ← thisText i
    match f with
    | charAt =>
      return .string ⟨((unitAt s (← toInteger e (i.arg 0))).toList).toArray⟩
    | charCodeAt =>
      return ((unitAt s (← toInteger e (i.arg 0))).map fun u => Value.ofNat u.toNat).getD .nan
    | codePointAt =>
      let d ← toInteger e (i.arg 0)
      match unitAt s d with
      | none => return .undefined
      | some _ =>
        let n := d.toIntTrunc.toNat
        return .ofNat ((s.extract n (n + 2)).codePoints.headD 0)
    | at_ =>
      match placeOf? (← toInteger e (i.arg 0)) s.length with
      | some n => return .string (s.extract n (n + 1))
      | none => return .undefined
    | indexOf =>
      let needle ← toText e (i.arg 0)
      let start ← clampedArg i 1 s.length 0
      return .ofInt (((s.indexOf? needle start).map fun n => (n : Int)).getD (-1))
    | lastIndexOf =>
      let needle ← toText e (i.arg 0)
      let d ← toNumber e (i.arg 1)
      let stop := if d.isNaN then s.length else clampIndex d s.length
      return .ofInt (((s.lastIndexOf? needle stop).map fun n => (n : Int)).getD (-1))
    | includes =>
      let needle ← toText e (i.arg 0)
      return .bool (s.indexOf? needle (← clampedArg i 1 s.length 0)).isSome
    | startsWith =>
      let needle ← toText e (i.arg 0)
      let start ← clampedArg i 1 s.length 0
      return .bool (s.extract start (start + needle.length) == needle)
    | endsWith =>
      let needle ← toText e (i.arg 0)
      let stop ← clampedArg i 1 s.length s.length
      return .bool (needle.length ≤ stop && s.extract (stop - needle.length) stop == needle)
    | slice =>
      let start ← positionOf i 0 s.length 0
      return .string (s.extract start (← positionOf i 1 s.length s.length))
    | substring =>
      let a ← clampedArg i 0 s.length 0
      let b ← clampedArg i 1 s.length s.length
      return .string (s.extract (min a b) (max a b))
    | substr =>
      let start ← positionOf i 0 s.length 0
      let count ← clampedArg i 1 (s.length - start) (s.length - start)
      return .string (s.extract start (start + count))
    | toUpperCase => return .string (Case.upperText s)
    | toLowerCase => return .string (Case.lowerText s)
    | trim => return .string (trimUnits true true s)
    | trimStart => return .string (trimUnits true false s)
    | trimEnd => return .string (trimUnits false true s)
    | padStart => pad i s true
    | padEnd => pad i s false
    | repeat_ =>
      match (← toInteger e (i.arg 0)).toInt? with
      | some n =>
        if n < 0 || 2147483647 < n then throwRange "invalid repeat count"
        if s.isEmpty || n == 0 then return .string default
        if 1073741823 < s.length * n.toNat then throwRange "invalid string length"
        claimBytes (s.length * n.toNat)
        return .string (repeatText s n.toNat)
      | none => throwRange "invalid repeat count"
    | split =>
      match i.arg 0 with
      | .undefined => listValue [.string s]
      | v =>
        let separator ← toText e v
        let limit ← match i.arg 1 with
          | .undefined => pure 4294967295
          | v => do pure (toUint32 (← toNumber e v)).toNat
        listValue (((splitText s separator).take limit).map .string)
    | concat =>
      let parts ← i.args.mapM (toText e)
      claimText (parts.foldl (· ++ ·) s)
    | replace => replaceText i s (← toText e (i.arg 0)) false
    | replaceAll => replaceText i s (← toText e (i.arg 0)) true
    | localeCompare =>
      let other ← toText e (i.arg 0)
      return .ofInt (if s.lt other then -1 else if other.lt s then 1 else 0)
    | iterator => return .object (← newObject .stringIterator (.walk (.string s) .values 0))
    | _ => return .string s

end Patchbay.Script
