import Patchbay.Json.Reader
import Patchbay.Settings
/-!
Settings read from JSON. Each structure may be an object, whose absent fields take their defaults and
whose unknown keys are passed over, or a list of its fields in order. A known key may stand once.
-/
namespace Patchbay

open Json

/-- A field of a structure, under its name in a file. -/
structure Field (σ : Type) where
  name : String
  read : σ → Reader σ

/-- The fields of an object, from `first` on; `seen` are the names that had a value. -/
def readFields {σ : Type} (fields : List (Field σ)) (first : Bool) (seen : List String) (s : σ) :
    Nat → Reader σ
  | 0 => failHere .endInObject
  | fuel + 1 => do
    if ← moreKeys first then
      advance
      let key ← string
      match fields.find? (·.name == key) with
      | some field =>
        if seen.contains key then repeated key
        else
          colon
          let s ← field.read s
          readFields fields false (key :: seen) s fuel
      | none =>
        colon
        skipValue ((← get).rest.length + 1)
        readFields fields false seen s fuel
    else return s

def readItems {σ : Type} (first : Bool) (s : σ) : List (Field σ) → Reader σ
  | [] => return s
  | field :: rest => do
    if ← moreItems first then
      let s ← field.read s
      readItems false s rest
    else return s

def readStructure {σ : Type} (name : String) (fields : List (Field σ)) (default : σ) : Reader σ := do
  let b ← valueStart
  if b == 0x5B then
    advance
    let s ← readItems true default fields
    endList
    return s
  else if b == 0x7B then
    advance
    let s ← readFields fields true [] default ((← get).rest.length + 1)
    endObject
    return s
  else wrongType ("struct " ++ name)

def InterpreterSettings.fields : List (Field InterpreterSettings) :=
  [⟨"memory_limit", fun s => do return { s with memoryLimit := ← optional wordSize }⟩,
    ⟨"max_stack_size", fun s => do return { s with maxStackSize := ← optional wordSize }⟩,
    ⟨"gc_threshold", fun s => do return { s with gcThreshold := ← optional wordSize }⟩]

def InterpreterSettings.read : Reader InterpreterSettings :=
  readStructure "InterpreterSettings" fields {}

def OwnerSettings.fields : List (Field OwnerSettings) :=
  [⟨"name", fun s => do return { s with name := ← optional (text "a string") }⟩,
    ⟨"debug", fun s => do return { s with debug := ← bool }⟩,
    ⟨"file", fun s => do return { s with file := ← optional (text "path string") }⟩]

def OwnerSettings.read : Reader OwnerSettings :=
  readStructure "OwnerSettings" fields {}

def Settings.fields : List (Field Settings) :=
  [⟨"interpreter", fun s => do return { s with interpreter := ← InterpreterSettings.read }⟩,
    ⟨"search_paths", fun s => do return { s with searchPaths := ← list (text "path string") }⟩,
    ⟨"owner", fun s => do return { s with owner := ← OwnerSettings.read }⟩]

def Settings.read : Reader Settings := readStructure "Settings" fields {}

def Settings.ofJson (s : String) : Except String Settings :=
  let bytes := Text.Utf8.ofString s
  match whole Settings.read bytes with
  | .ok settings => .ok settings
  | .error failure => .error (failure.text bytes)

end Patchbay
