import Patchbay.Script.Realm
/-!
The engine of scripts: each level evaluates with the level below it, and the lowest level complains
that the stack is used up.
-/
namespace Patchbay.Script

def engine : Nat → Engine
  | 0 =>
    ⟨fun _ _ => throwNew .internal "stack overflow", fun _ _ => throwNew .internal "stack overflow",
      fun _ _ _ => throwNew .internal "stack overflow",
      fun _ _ _ => throwNew .internal "stack overflow", fun _ _ => throwNew .internal "stack overflow"⟩
  | depth + 1 =>
    let e := engine depth
    ⟨evaluate e, execute e, callValue e, constructValue e, ownProperty? e⟩

def depthLimit : Nat := 2500

def mainEngine : Engine := engine depthLimit

end Patchbay.Script
