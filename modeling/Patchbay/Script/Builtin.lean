import Patchbay.Script.Builtin.Bytes
import Patchbay.Script.Builtin.Date
import Patchbay.Script.Builtin.Function
import Patchbay.Script.Builtin.Other
import Patchbay.Script.Builtin.Reflection
import Patchbay.Script.Builtin.Text
/-!
All built-in functions together.
-/
namespace Patchbay.Script

def Native.run (f : Native) (i : Invocation) : Run Value :=
  match f with
  | object f => f.run i
  | function f => f.run i
  | error f => f.run i
  | list f => f.run i
  | string f => f.run i
  | number f => f.run i
  | boolean f => f.run i
  | symbol f => f.run i
  | bigint f => f.run i
  | math f => f.run i
  | date f => f.run i
  | set f => f.run i
  | map f => f.run i
  | buffer f => f.run i
  | typed f => f.run i
  | view f => f.run i
  | reflect f => f.run i
  | promise f => f.run i
  | iterator f => f.run i
  | host f => f.run i
  | misc f => f.run i

end Patchbay.Script
