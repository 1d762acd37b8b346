import Patchbay.Json.Writer
/-!
Settings: limits of the interpreter, directories searched for scripts, and the attributes of owners
created without their own.
-/
namespace Patchbay

structure InterpreterSettings where
  memoryLimit : Option UInt64 := none
  maxStackSize : Option UInt64 := none
  gcThreshold : Option UInt64 := none
  deriving DecidableEq, Inhabited, Repr

structure OwnerSettings where
  name : Option String := none
  debug : Bool := true
  file : Option String := none
  deriving DecidableEq, Repr

instance : Inhabited OwnerSettings := ⟨{}⟩

structure Settings where
  interpreter : InterpreterSettings := {}
  searchPaths : List String := []
  owner : OwnerSettings := {}
  deriving DecidableEq, Repr

instance : Inhabited Settings := ⟨{}⟩

open Json

def writeLimit (n : UInt64) : String := toString n.toNat

def InterpreterSettings.toJson (s : InterpreterSettings) : String :=
  writeObject [("memory_limit", writeOption writeLimit s.memoryLimit),
    ("max_stack_size", writeOption writeLimit s.maxStackSize),
    ("gc_threshold", writeOption writeLimit s.gcThreshold)]

def OwnerSettings.toJson (s : OwnerSettings) : String :=
  writeObject [("name", writeOption writeString s.name), ("debug", writeBool s.debug),
    ("file", writeOption writeString s.file)]

def Settings.toJson (s : Settings) : String :=
  writeObject [("interpreter", s.interpreter.toJson),
    ("search_paths", writeList writeString s.searchPaths), ("owner", s.owner.toJson)]

end Patchbay
