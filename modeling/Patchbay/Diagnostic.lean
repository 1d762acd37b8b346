import Patchbay.Text.Blank
/-!
Identities of owners and reports of failed operations.
-/
namespace Patchbay

/-- The identity of an owner and of its namespace. -/
structure Identity where
  text : String
  deriving DecidableEq, Inhabited, Repr

def Identity.ofNat (n : Nat) : Identity :=
  let digits := toString n
  ⟨"u" ++ String.ofList (List.replicate (6 - digits.length) '0') ++ digits⟩

/-- The supply of identities of a process. Each one is handed out once. -/
structure Supply where
  next : Nat := 1
  deriving DecidableEq, Inhabited, Repr

def Supply.take (s : Supply) : Identity × Supply := (.ofNat s.next, ⟨s.next + 1⟩)

structure Diagnostic where
  owner : Identity
  operation : String
  /-- What it was applied to: a source text, a path or a name. -/
  subject : String
  message : String
  traceback : Option String
  deriving DecidableEq, Inhabited, Repr

namespace Diagnostic

/-- A report; a blank traceback is none. -/
def make (owner : Identity) (operation subject message : String) (traceback : Option String := none) :
    Diagnostic :=
  ⟨owner, operation, subject, message, traceback.filter fun trace => !Text.isAllBlank trace.toList⟩

def text (d : Diagnostic) : String :=
  let target := if d.subject.isEmpty then d.operation else d.operation ++ " " ++ d.subject
  "[" ++ d.owner.text ++ "] <- (" ++ target ++ "): " ++ d.message

end Diagnostic

end Patchbay
