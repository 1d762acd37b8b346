import Patchbay.Lifecycle
/-!
A bench: one lifecycle with the leases that are taken on it and the namespaces that were made by it,
each under the number in which it came. A namespace stays usable after the interpreter has ended.
-/
namespace Patchbay

open Script

def ModuleBuild.answer : ModuleBuild := fun owner =>
  objectOf [("answer", .ofInt 42), ("owner", .ofString owner.text)]

def ModuleBuild.throws : ModuleBuild := fun _ => throwType "broken module"

def ModuleBuild.fails : ModuleBuild := fun _ => throwThe Fault .unbuilt

structure Bench where
  lifecycle : Lifecycle
  supply : Supply := {}
  leases : List Bool := []
  namespaces : List (Option Namespace) := []
  files : Files.Tree := {}
  deriving Inhabited

namespace Bench

/-- The result of a step, the bench after it, and what was logged. -/
structure Report (α : Type) where
  result : α
  bench : Bench
  log : List Log.Entry := []

def register (b : Bench) (m : BuiltinModule) : Report (Except LifecycleError Unit) :=
  match b.lifecycle.register m with
  | .ok l => { result := .ok (), bench := { b with lifecycle := l } }
  | .error e => { result := .error e, bench := b }

def acquire (b : Bench) (granted : Bool := b.lifecycle.room.starts) :
    Report (Except LifecycleError Unit) :=
  match b.lifecycle.acquire granted with
  | (.ok log, l) => ⟨.ok (), { b with lifecycle := l }, log⟩
  | (.error e, l) => { result := .error e, bench := { b with lifecycle := l } }

def release (b : Bench) : Report Unit :=
  let (l, log) := b.lifecycle.release
  ⟨(), { b with lifecycle := l }, log⟩

/-- Takes a lease: a reference that is given back when the lease is dropped. -/
def lease (b : Bench) (granted : Bool := b.lifecycle.room.starts) : Report (Except LifecycleError Nat) :=
  match b.lifecycle.acquire granted with
  | (.ok log, l) => ⟨.ok b.leases.length, { b with lifecycle := l, leases := b.leases ++ [true] }, log⟩
  | (.error e, l) => { result := .error e, bench := { b with lifecycle := l } }

def dropLease (b : Bench) (index : Nat) : Report Bool :=
  if b.leases[index]? == some true then
    let (l, log) := b.lifecycle.release
    ⟨true, { b with lifecycle := l, leases := b.leases.set index false }, log⟩
  else { result := false, bench := b }

def createNamespace (b : Bench) (granted : Bool := b.lifecycle.room.fits) :
    Report (Except LifecycleError (Nat × Identity)) :=
  match b.lifecycle.createNamespace b.supply granted with
  | (.ok (n, l, log), s) =>
    ⟨.ok (b.namespaces.length, n.identity),
      { b with lifecycle := l, supply := s, namespaces := b.namespaces ++ [some n] }, log⟩
  | (.error e, s) => { result := .error e, bench := { b with supply := s } }

def dropNamespace (b : Bench) (index : Nat) : Report Bool :=
  match b.namespaces[index]?.join with
  | some n =>
    let (l, log) := b.lifecycle.dropNamespace n
    ⟨true, { b with lifecycle := l, namespaces := b.namespaces.set index none }, log⟩
  | none => { result := false, bench := b }

def ask {α : Type} (b : Bench) (index : Nat) (f : Namespace → Answer α) :
    Report (Option (Except Diagnostic α)) :=
  match b.namespaces[index]?.join with
  | some n =>
    let answer := f n
    ⟨some answer.outcome, { b with namespaces := b.namespaces.set index (some answer.after) }, answer.log⟩
  | none => { result := none, bench := b }

def evaluate (b : Bench) (index : Nat) (source : String) :
    Report (Option (Except Diagnostic (Option Reply))) :=
  b.ask index fun n => n.evaluate source

def execute (b : Bench) (index : Nat) (source : String) : Report (Option (Except Diagnostic Unit)) :=
  b.ask index fun n => n.execute source

def executeBuffer (b : Bench) (index : Nat) (name source : String) :
    Report (Option (Except Diagnostic Unit)) :=
  b.ask index fun n => n.executeBuffer name source

def executeFile (b : Bench) (index : Nat) (path : String) : Report (Option (Except Diagnostic Unit)) :=
  b.ask index fun n => n.executeFile b.files path

def importModule (b : Bench) (index : Nat) (name : String) : Report (Option (Except Diagnostic Unit)) :=
  b.ask index fun n => n.importModule b.lifecycle.modules name

end Bench

end Patchbay
