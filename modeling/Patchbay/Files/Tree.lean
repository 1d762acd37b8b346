import Patchbay.Text.Utf8
/-!
The files that the program sees: a tree below the working directory, and nothing else that can be
read. A path is walked one component at a time, as the system does, and the first component that
cannot be passed decides the error.
-/
namespace Patchbay.Files

open Text.Utf8

inductive SystemError
  | noEntry
  | notDirectory
  | isDirectory
  | nameTooLong
  | nulInName
  | notUtf8
  | denied
  deriving DecidableEq, Repr

def SystemError.text : SystemError → String
  | noEntry => "No such file or directory (os error 2)"
  | notDirectory => "Not a directory (os error 20)"
  | isDirectory => "Is a directory (os error 21)"
  | nameTooLong => "File name too long (os error 36)"
  | nulInName => "file name contained an unexpected NUL byte"
  | notUtf8 => "stream did not contain valid UTF-8"
  | denied => "Permission denied (os error 13)"

inductive Node
  | file (content : Bytes)
  | directory
  deriving DecidableEq, Inhabited, Repr

/-- The entries below the working directory, each under the names that lead to it, and what else was
seen of the system at single paths. -/
structure Tree where
  entries : List (List String × Node) := []
  seen : List (String × Except SystemError Node) := []
  deriving Inhabited

/-- Where a walk stands: at an entry below the working directory, or in a directory outside it of
which nothing is known but its parents. -/
inductive Place
  | below (names : List String)
  | outside
  deriving DecidableEq, Repr

namespace Tree

def node? (t : Tree) (names : List String) : Option Node :=
  if names.isEmpty then some .directory else t.entries.lookup names

def nameLimit : Nat := 255

def pathLimit : Nat := 4095

def enter (t : Tree) (place : Place) (name : String) : Except SystemError (Place × Node) :=
  if name == "." then
    .ok (place, .directory)
  else if name == ".." then
    match place with
    | .below [] | .outside => .ok (.outside, .directory)
    | .below names => .ok (.below names.dropLast, .directory)
  else if nameLimit < name.utf8ByteSize then .error .nameTooLong
  else
    match place with
    | .outside => .error .noEntry
    | .below names =>
      match t.node? (names ++ [name]) with
      | some node => .ok (.below (names ++ [name]), node)
      | none => .error .noEntry

/-- The components of a path in turn; an empty one asks for a directory only. -/
def walk (t : Tree) (place : Place) (node : Node) : List String → Except SystemError Node
  | [] => .ok node
  | name :: rest =>
    match node with
    | .file _ => .error .notDirectory
    | .directory =>
      if name.isEmpty then t.walk place node rest
      else do
        let (place, node) ← t.enter place name
        t.walk place node rest

def components (path : List Char) : List String :=
  (path.splitOn '/').map String.ofList

def isAbsolute (path : String) : Bool := path.toList.head? == some '/'

def resolve (t : Tree) (path : String) : Except SystemError Node :=
  match t.seen.lookup path with
  | some found => found
  | none =>
    if path.toList.contains '\x00' then .error .nulInName
    else if path.isEmpty then .error .noEntry
    else if pathLimit < path.utf8ByteSize then .error .nameTooLong
    else t.walk (if isAbsolute path then .outside else .below []) .directory (components path.toList)

def isFile (t : Tree) (path : String) : Bool :=
  match t.resolve path with
  | .ok (.file _) => true
  | _ => false

def read (t : Tree) (path : String) : Except SystemError Bytes :=
  match t.resolve path with
  | .ok (.file content) => .ok content
  | .ok .directory => .error .isDirectory
  | .error e => .error e

def names (path : String) : List String :=
  (components path.toList).filter fun name => !name.isEmpty && name != "."

def put (t : Tree) (names : List String) (node : Node) : Tree :=
  { t with entries := (names, node) :: t.entries.filter (·.1 != names) }

def makeDirectory (t : Tree) (path : String) : Tree :=
  let ns := names path
  (List.range (ns.length + 1)).foldl (fun t k =>
    if (t.node? (ns.take k)).isSome then t else t.put (ns.take k) .directory) t

def write (t : Tree) (path : String) (content : Bytes) : Tree :=
  let ns := names path
  (t.makeDirectory (String.intercalate "/" ns.dropLast)).put ns (.file content)

def remove (t : Tree) (path : String) : Tree :=
  { t with entries := t.entries.filter (·.1 != names path) }

end Tree

end Patchbay.Files
