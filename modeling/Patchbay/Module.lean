import Patchbay.Diagnostic
import Patchbay.Script.Fault
/-!
Built-in modules: objects that an import puts into a namespace under a global name, and the table that
knows them by name.
-/
namespace Patchbay

open Script

/-- What makes the object of a module in the namespace of an owner. -/
def ModuleBuild : Type := Identity → ExceptT Fault Run Ref

def version : String := "0.1.0"

def hostModuleName : String := "ember"

def objectOf (fields : List (String × Value)) : Run Ref := do
  let r ← newObject .object
  fields.forM fun (name, v) => create r (.named name) v
  return r

/-- The module of the host itself: the identity, the version and two functions that post. -/
def ModuleBuild.host : ModuleBuild := fun owner => do
  objectOf [("name", .ofString owner.text), ("version", .ofString version),
    ("post", ← Realm.hostFunction .post), ("error", ← Realm.hostFunction .error)]

structure BuiltinModule where
  name : String
  build : ModuleBuild

def hostModule : BuiltinModule := ⟨hostModuleName, .host⟩

/-- The modules that can be imported, in the order in which they were registered. -/
structure ModuleTable where
  modules : List BuiltinModule := []
  deriving Inhabited

namespace ModuleTable

def get? (t : ModuleTable) (name : String) : Option BuiltinModule :=
  t.modules.find? fun m => m.name == name

def register? (t : ModuleTable) (m : BuiltinModule) : Option ModuleTable :=
  if (t.get? m.name).isSome then none else some ⟨t.modules ++ [m]⟩

def names (t : ModuleTable) : List String := t.modules.map BuiltinModule.name

def length (t : ModuleTable) : Nat := t.modules.length

def isEmpty (t : ModuleTable) : Bool := t.modules.isEmpty

end ModuleTable

end Patchbay
