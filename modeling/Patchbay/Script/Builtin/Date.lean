import Patchbay.Script.Builtin.Number
/-!
Points in time, as milliseconds from the start of 1970 without leap seconds. Local time is universal
time.
-/
namespace Patchbay.Script

open Binary Text

namespace DateFn

def statics : List (String × Nat × DateFn) := [("now", 0, now), ("parse", 1, parse), ("UTC", 7, utc)]

def methods : List (String × Nat × DateFn) :=
  [("valueOf", 0, valueOf), ("getTime", 0, valueOf), ("toString", 0, toString),
    ("toISOString", 0, toISOString), ("toJSON", 1, toJSON), ("getFullYear", 0, part 0),
    ("getUTCFullYear", 0, part 0), ("getMonth", 0, part 1), ("getUTCMonth", 0, part 1),
    ("getDate", 0, part 2), ("getUTCDate", 0, part 2), ("getHours", 0, part 3),
    ("getUTCHours", 0, part 3), ("getMinutes", 0, part 4), ("getUTCMinutes", 0, part 4),
    ("getSeconds", 0, part 5), ("getUTCSeconds", 0, part 5), ("getMilliseconds", 0, part 6),
    ("getUTCMilliseconds", 0, part 6), ("getDay", 0, part 7), ("getUTCDay", 0, part 7)]

end DateFn

def millisecondsOfDay : Int := 86400000

/-- The days from the start of 1970 to a day of the calendar; months count from zero. -/
def daysOfDate (year month day : Int) : Int :=
  let year := year + Int.fdiv month 12
  let month := Int.fmod month 12
  let (y, m) := if month < 2 then (year - 1, month + 10) else (year, month - 2)
  let era := Int.fdiv y 400
  let yearOfEra := y - era * 400
  let dayOfYear := (153 * m + 2) / 5 + day - 1
  let dayOfEra := yearOfEra * 365 + yearOfEra / 4 - yearOfEra / 100 + dayOfYear
  era * 146097 + dayOfEra - 719468

def dateOfDays (days : Int) : Int × Int × Int :=
  let z := days + 719468
  let era := Int.fdiv z 146097
  let dayOfEra := z - era * 146097
  let yearOfEra := (dayOfEra - dayOfEra / 1460 + dayOfEra / 36524 - dayOfEra / 146096) / 365
  let dayOfYear := dayOfEra - (365 * yearOfEra + yearOfEra / 4 - yearOfEra / 100)
  let m := (5 * dayOfYear + 2) / 153
  let day := dayOfYear - (153 * m + 2) / 5 + 1
  let month := if m < 10 then m + 2 else m - 10
  (yearOfEra + era * 400 + (if month < 2 then 1 else 0), month, day)

def partsOfTime (t : Int) : List Int :=
  let days := Int.fdiv t millisecondsOfDay
  let rest := Int.fmod t millisecondsOfDay
  let (year, month, day) := dateOfDays days
  [year, month, day, rest / 3600000, rest / 60000 % 60, rest / 1000 % 60, rest % 1000,
    Int.fmod (days + 4) 7]

def timeOfParts (parts : List Int) : Int :=
  let part (n : Nat) (default : Int) : Int := parts.getD n default
  daysOfDate (part 0 1970) (part 1 0) (part 2 1) * millisecondsOfDay + part 3 0 * 3600000 +
    part 4 0 * 60000 + part 5 0 * 1000 + part 6 0

def timeLimit : Nat := 8640000000000000

def timeOf (d : Double) : Double :=
  match d.datum with
  | .finite .. => if d.toIntTrunc.natAbs ≤ timeLimit then .ofInt d.toIntTrunc else .nan
  | _ => .nan

def padNumber (width : Nat) (n : Int) : String :=
  let digits := toString n.natAbs
  (if n < 0 then "-" else "") ++ String.ofList (List.replicate (width - digits.length) '0') ++ digits

def dayNames : List String := ["Sun", "Mon", "Tue", "Wed", "Thu", "Fri", "Sat"]

def monthNames : List String :=
  ["Jan", "Feb", "Mar", "Apr", "May", "Jun", "Jul", "Aug", "Sep", "Oct", "Nov", "Dec"]

def clockText (part : Nat → Int) : String :=
  padNumber 2 (part 3) ++ ":" ++ padNumber 2 (part 4) ++ ":" ++ padNumber 2 (part 5)

def timeText (t : Int) : String :=
  let part (n : Nat) : Int := (partsOfTime t).getD n 0
  dayNames.getD (part 7).toNat "" ++ " " ++ monthNames.getD (part 1).toNat "" ++ " " ++
    padNumber 2 (part 2) ++ " " ++ padNumber 4 (part 0) ++ " " ++ clockText part ++ " GMT+0000"

def timeStamp (t : Int) : String :=
  let part (n : Nat) : Int := (partsOfTime t).getD n 0
  let year := if 0 ≤ part 0 && part 0 ≤ 9999 then padNumber 4 (part 0)
    else (if part 0 < 0 then "-" else "+") ++ padNumber 6 (part 0).natAbs
  year ++ "-" ++ padNumber 2 (part 1 + 1) ++ "-" ++ padNumber 2 (part 2) ++ "T" ++ clockText part ++
    "." ++ padNumber 3 (part 6) ++ "Z"

def leadingDigits (s : List Char) : List Char × List Char :=
  (s.takeWhile Decimal.isDigit, s.dropWhile Decimal.isDigit)

/-- Numbers with marks between them; each mark is needed before the next number. -/
def markedNumbers : List Char → List Char → List Int × List Char
  | [], s => ([], s)
  | mark :: marks, s =>
    match s with
    | c :: rest =>
      let (digits, after) := leadingDigits rest
      if c = mark && !digits.isEmpty then
        let (more, rest) := markedNumbers marks after
        ((Decimal.natOfDigits digits : Int) :: more, rest)
      else ([], s)
    | [] => ([], s)

/-- The time that a stamp writes: a date, and a time of day that may follow. -/
def parseTime (s : List Char) : Option Int :=
  let (year, rest) := leadingDigits s
  if year.length != 4 then none
  else
    let (date, rest) := markedNumbers ['-', '-'] rest
    let (clock, rest) := markedNumbers ['T', ':', ':', '.'] rest
    let parts := [(Decimal.natOfDigits year : Int), date.getD 0 1 - 1, date.getD 1 1] ++ clock
    match rest with
    | [] | ['Z'] => some (timeOfParts parts)
    | sign :: rest =>
      let (zone, rest) := markedNumbers [sign, ':'] (sign :: rest)
      let offset := zone.getD 0 0 * 3600000 + zone.getD 1 0 * 60000
      if !rest.isEmpty then none
      else if sign = '+' then some (timeOfParts parts - offset)
      else if sign = '-' then some (timeOfParts parts + offset)
      else none

def ownTime (v : Value) : Run Double := do
  match v with
  | .object r =>
    match ← payload r with
    | .date t => return t
    | _ => throwType "not a Date object"
  | _ => throwType "not a Date object"

def timeOfNumbers (ds : List Double) : Double :=
  match ds.mapM fun d => if d.isFinite then some d.toIntTrunc else none with
  | none => .nan
  | some parts =>
    let parts := match parts with
      | year :: rest => (if 0 ≤ year && year ≤ 99 then 1900 + year else year) :: rest
      | [] => []
    timeOf (.ofInt (timeOfParts parts))

def timeOfText (s : CodeUnits) : Double :=
  match parseTime s.lossy.toList with
  | some t => timeOf (.ofInt t)
  | none => .nan

def timeOfArgs (i : Invocation) : Run Double := do
  match i.args with
  | [] => return .zero
  | [v] =>
    match ← toPrimitive i.engine .default v with
    | .string s => return timeOfText s
    | v => return timeOf (← primitiveNumber v)
  | args => return timeOfNumbers (← args.mapM (toNumber i.engine))

def shownTime (d : Double) : Value :=
  match d.toInt? with
  | some t => .ofString (timeText t)
  | none => .ofString "Invalid Date"

def DateFn.run (f : DateFn) (i : Invocation) : Run Value := do
  let e := i.engine
  match f with
  | make =>
    if i.target.isSome then i.make .date (.date (← timeOfArgs i)) else return shownTime .zero
  | now => return .number .zero
  | parse => return .number (timeOfText (← toText e (i.arg 0)))
  | utc =>
    let parts ← i.args.mapM (toNumber e)
    return .number (if parts.isEmpty then .nan else timeOfNumbers parts)
  | valueOf => return .number (← ownTime i.this)
  | toString => return shownTime (← ownTime i.this)
  | toISOString =>
    match (← ownTime i.this).toInt? with
    | some t => return .ofString (timeStamp t)
    | none => throwRange "Date value is NaN"
  | toJSON => invoke e i.this (.named "toISOString") []
  | toPrimitive =>
    let r ← requireObject i.this
    match i.arg 0 with
    | .string s =>
      firstPrimitive e r (if s == .ofString "number" then ["valueOf", "toString"]
        else ["toString", "valueOf"])
    | _ => throwType "invalid hint"
  | part n =>
    match (← ownTime i.this).toInt? with
    | some t => return .ofInt ((partsOfTime t).getD n 0)
    | none => return .nan

end Patchbay.Script
