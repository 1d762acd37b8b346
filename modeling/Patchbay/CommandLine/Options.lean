import Patchbay.CommandLine.Similarity
/-!
The options of the command line. Arguments are read from left to right; a request for help or for the
version ends the reading, and so does the first misuse.
-/
namespace Patchbay.CommandLine

def programName : String := "ember"

inductive Opt
  | settings
  | searchPath
  | help
  | version
  deriving DecidableEq, Inhabited, Repr

namespace Opt

def all : List Opt := [settings, searchPath, help, version]

def long : Opt → String
  | settings => "settings"
  | searchPath => "search-path"
  | help => "help"
  | version => "version"

def short : Opt → Char
  | settings => 'f'
  | searchPath => 'p'
  | help => 'h'
  | version => 'V'

def placeholder? : Opt → Option String
  | settings => some "<SETTINGS>"
  | searchPath => some "<SEARCH_PATHS>"
  | help | version => none

def about : Opt → String
  | settings => "JSON settings file; defaults apply when omitted"
  | searchPath => "Extra script directories, searched after the configured ones"
  | help => "Print help"
  | version => "Print version"

def shown (o : Opt) : String :=
  "--" ++ o.long ++ (o.placeholder?.map (" " ++ ·)).getD ""

def listed (o : Opt) : String := "-" ++ String.singleton o.short ++ ", " ++ o.shown

def ofLong? (name : String) : Option Opt := all.find? fun o => o.long == name

def ofShort? (c : Char) : Option Opt := all.find? fun o => o.short == c

end Opt

structure Options where
  settings : Option String := none
  searchPaths : List String := []
  deriving DecidableEq, Inhabited, Repr

/-- How a command line is wrong. `used` are the options that were understood before. -/
inductive Misuse
  | unexpected (arg : String) (similar : Option Opt) (used : List Opt)
  | valueMissing (o : Opt)
  | repeated (o : Opt)
  | valueUnneeded (value : String) (o : Opt) (used : List Opt)
  deriving DecidableEq, Inhabited, Repr

inductive Stop
  | help
  | version
  | misuse (m : Misuse)
  deriving DecidableEq, Inhabited, Repr

def usage (used : List Opt) : String :=
  "Usage: " ++ programName ++
    if used.isEmpty then " [OPTIONS]" else String.join (used.map fun o => " " ++ o.shown)

def helpText : String :=
  let width := (Opt.all.map fun o => o.listed.length).foldl max 0
  let line (o : Opt) : String :=
    "  " ++ o.listed ++ String.ofList (List.replicate (width + 2 - o.listed.length) ' ') ++ o.about ++ "\n"
  usage [] ++ "\n\nOptions:\n" ++ String.join (Opt.all.map line)

def Misuse.summary : Misuse → String
  | unexpected arg _ _ => "unexpected argument '" ++ arg ++ "' found"
  | valueMissing o => "a value is required for '" ++ o.shown ++ "' but none was supplied"
  | repeated o => "the argument '" ++ o.shown ++ "' cannot be used multiple times"
  | valueUnneeded value o _ =>
    "unexpected value '" ++ value ++ "' for '" ++ o.shown ++ "' found; no more were expected"

def Misuse.reminder : Misuse → List String
  | unexpected _ none used => [usage used]
  | unexpected _ (some o) used =>
    ["  tip: a similar argument exists: '--" ++ o.long ++ "'", usage used]
  | valueMissing _ => []
  | repeated _ => [usage []]
  | valueUnneeded _ _ used => [usage used]

def Misuse.message (m : Misuse) : String :=
  String.intercalate "\n\n"
    (["error: " ++ m.summary] ++ m.reminder ++ ["For more information, try '--help'."]) ++ "\n"

structure Reading where
  options : Options := {}
  /-- The options that were understood, in the order in which they came. -/
  used : List Opt := []
  /-- An option whose value is not taken in yet, and its value if that was read. -/
  pending : Option (Opt × Option String) := none
  deriving DecidableEq, Inhabited, Repr

namespace Reading

def mention (r : Reading) (o : Opt) : Reading :=
  if r.used.contains o then r else { r with used := r.used ++ [o] }

/-- Takes in the value of an option. Only search paths may be given more than once, and no value may
be empty. -/
def take (r : Reading) (o : Opt) (value : String) : Reading × Option Misuse :=
  if o == .settings && r.used.contains o then
    ({ r with used := r.used.filter (· != o) }, some (.repeated o))
  else
    let r := r.mention o
    if value.isEmpty then (r, some (.valueMissing o))
    else
      match o with
      | .settings => ({ r with options := { r.options with settings := some value } }, none)
      | .searchPath =>
        ({ r with options := { r.options with searchPaths := r.options.searchPaths ++ [value] } }, none)
      | .help | .version => (r, none)

def settle (r : Reading) : Reading × Option Misuse :=
  match r.pending with
  | none => (r, none)
  | some (o, none) => ({ r with pending := none }, some (.valueMissing o))
  | some (o, some value) => { r with pending := none }.take o value

def settled (r : Reading) : Except Stop Reading :=
  match r.settle with
  | (r, none) => .ok r
  | (_, some m) => .error (.misuse m)

def refuse {α : Type} (arg : String) : Except Stop α := .error (.misuse (.unexpected arg none []))

def refuseName {α : Type} (r : Reading) (name : String) : Except Stop α :=
  let similar := (Similarity.nearest? name (Opt.all.map Opt.long)).bind Opt.ofLong?
  let r := r.settle.1
  let r := (similar.map r.mention).getD r
  .error (.misuse (.unexpected ("--" ++ name) similar r.used))

/-- An option that is complete, a value being attached to it if it takes one. -/
def complete (r : Reading) (o : Opt) (value : String) : Except Stop Reading := do
  let r ← r.settled
  match r.take o value with
  | (r, none) => .ok r
  | (_, some m) => .error (.misuse m)

def bare (r : Reading) (o : Opt) : Except Stop Reading := do
  let r ← r.settled
  match o with
  | .help => .error .help
  | .version => .error .version
  | o => .ok { r with pending := some (o, none) }

def long (r : Reading) (body : List Char) : Except Stop Reading :=
  let name := String.ofList (body.takeWhile (· != '='))
  let value? := ((body.dropWhile (· != '=')).tail?).map String.ofList
  match Opt.ofLong? name with
  | none => r.refuseName name
  | some o =>
    match value?, o.placeholder? with
    | none, _ => r.bare o
    | some value, some _ => r.complete o value
    | some value, none =>
      .error (.misuse (.valueUnneeded value o (r.used ++ [o])))

/-- An argument that starts with one dash; what follows an option that takes a value is its value. -/
def short (r : Reading) : List Char → Except Stop Reading
  | [] => .ok r
  | c :: rest =>
    match Opt.ofShort? c with
    | none => refuse ("-" ++ String.singleton c)
    | some o =>
      match o.placeholder?, rest with
      | some _, '=' :: value => r.complete o (String.ofList value)
      | some _, first :: value => r.complete o (String.ofList (first :: value))
      | _, _ => r.bare o

def word (r : Reading) (arg : String) : Except Stop Reading :=
  match r.pending with
  | some (o, none) => .ok { r with pending := some (o, some arg) }
  | _ => refuse arg

end Reading

def readAll (r : Reading) : List String → Except Stop Reading
  | [] => r.settled
  | arg :: rest => do
    match arg.toList with
    | ['-', '-'] =>
      match rest with
      | [] => r.settled
      | first :: _ => Reading.refuse first
    | '-' :: '-' :: body => readAll (← r.long body) rest
    | '-' :: c :: body => readAll (← r.short (c :: body)) rest
    | _ => readAll (← r.word arg) rest

def parse (args : List String) : Except Stop Options := (readAll {} args).map Reading.options

end Patchbay.CommandLine
