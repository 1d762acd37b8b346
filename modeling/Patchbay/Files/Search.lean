import Patchbay.Files.Tree
/-!
Script files: found by name, directly or below one of the searched directories, and read with every
line break as a single line feed.
-/
namespace Patchbay.Files

open Text.Utf8

inductive FileError
  | emptyName
  | notFound (name : String)
  | unreadable (path : String) (cause : SystemError)
  deriving DecidableEq, Repr

def FileError.message : FileError → String
  | emptyName => "missing filepath"
  | notFound name => "can't find file " ++ name
  | unreadable path cause => "could not open file '" ++ path ++ "': " ++ cause.text

def join (root path : String) : String :=
  if root.isEmpty then path
  else if root.toList.getLast? == some '/' then root ++ path
  else root ++ "/" ++ path

def candidates (roots : List String) (name : String) : List String :=
  name :: if Tree.isAbsolute name then [] else roots.map fun root => join root name

def locate (t : Tree) (roots : List String) (name : String) : Except FileError String :=
  if name.isEmpty then .error .emptyName
  else
    match (candidates roots name).find? t.isFile with
    | some path => .ok path
    | none => .error (.notFound name)

/-- Every carriage return, with the line feed after it if there is one, becomes a line feed. -/
def normalize : Bytes → Bytes
  | [] => []
  | 0x0D :: 0x0A :: rest => 0x0A :: normalize rest
  | 0x0D :: rest => 0x0A :: normalize rest
  | b :: rest => b :: normalize rest

def readText (t : Tree) (path : String) : Except FileError Bytes :=
  match t.read path with
  | .ok content => .ok (normalize content)
  | .error cause => .error (.unreadable path cause)

end Patchbay.Files
