import Patchbay.Owner
import Patchbay.Roster
/-!
The host: its owners by identity, the lifecycle that they share, and the work that they put off until
the next turn.
-/
namespace Patchbay

structure Host where
  lifecycle : Lifecycle
  supply : Supply := {}
  roster : Roster Owner := {}
  deferred : DeferralQueue := {}
  files : Files.Tree := {}
  roots : List String := []
  deriving Inhabited

namespace Host

/-- The result of a step, the host after it, what the owners sent back and what was logged. -/
structure Report (α : Type) where
  result : α
  host : Host
  events : List Event := []
  log : List Log.Entry := []

def owner? (h : Host) (i : Identity) : Option Owner := h.roster.get? i

def owners (h : Host) : List Owner := h.roster.values

def update (h : Host) (i : Identity) (o : Owner) : Host := { h with roster := h.roster.replace i o }

def surroundings (h : Host) : Surroundings := ⟨h.lifecycle.active, h.lifecycle.modules, h.files, h.roots⟩

/-- Ends an owner: its namespace goes first, then the reference that it held. -/
def dismiss (l : Lifecycle) (o : Owner) : Lifecycle × List Log.Entry :=
  let (l, dropped) := l.dropNamespace o.scripts
  let (l, released) := l.release
  (l, o.note "will be deleted" ++ dropped ++ released)

/-- Takes an owner in under its identity; an owner that was there under it ends. -/
def enroll (h : Host) (o : Owner) : Host × List Log.Entry :=
  let (l, log) := match h.owner? o.identity with
    | none => (h.lifecycle, [])
    | some former => dismiss h.lifecycle former
  ({ h with lifecycle := l, roster := h.roster.insert o.identity o }, log)

def spawn (h : Host) (settings : OwnerSettings) (room : Room := h.lifecycle.room) :
    Report (Except LifecycleError Identity) :=
  let made := Owner.make h.lifecycle h.supply settings room
  let h := { h with lifecycle := made.lifecycle, supply := made.supply }
  match made.result with
  | .error e => { result := .error e, host := h, log := made.log }
  | .ok o =>
    let (h, replaced) := h.enroll o
    { result := .ok o.identity, host := h, log := made.log ++ replaced }

def free (h : Host) (i : Identity) : Report Bool :=
  match h.owner? i with
  | none => { result := false, host := h }
  | some o =>
    let (l, log) := dismiss h.lifecycle o
    { result := true, host := { h with lifecycle := l, roster := h.roster.erase i }, log := log }

def absorb (h : Host) (i : Identity) (r : Response) : Report Unit :=
  let name := r.owner.identity
  { result := ()
    host := { h.update i r.owner with deferred := r.tasks.foldl (·.schedule name) h.deferred }
    events := r.events
    log := r.log ++ r.tasks.map fun t => .deferred name t.shown }

def send (h : Host) (i : Identity) (m : Message) : Report Bool :=
  match h.owner? i with
  | none => { result := false, host := h, log := [.unknownOwner i] }
  | some o => { h.absorb i (o.handle h.surroundings m) with result := true }

def sendLine (h : Host) (i : Identity) (line : String) : Report (Except ParseError Bool) :=
  match Message.parse line with
  | .error e => { result := .error e, host := h }
  | .ok m =>
    let r := h.send i m
    { r with result := .ok r.result }

def editorClosed (h : Host) (i : Identity) (text : Text.Utf8.Bytes) : Report Bool :=
  match h.owner? i with
  | none => { result := false, host := h }
  | some o => { result := true, host := h.update i (o.closeEditor text) }

def editorSaved (h : Host) (i : Identity) (text : Text.Utf8.Bytes) : Report Bool :=
  match h.owner? i with
  | none => { result := false, host := h }
  | some o => { h.absorb i (o.saveEditor text) with result := true }

/-- Does one piece of work that was put off; that of an owner who is gone is dropped. -/
def runDeferred (h : Host) (i : Identity) (task : DeferredTask) : Report Nat :=
  match h.owner? i with
  | none => { result := 0, host := h, log := [.taskDropped i task.shown] }
  | some o => { h.absorb i (o.runTask h.surroundings task) with result := 1 }

def runAll (h : Host) : List (Identity × DeferredTask) → Report Nat
  | [] => { result := 0, host := h }
  | (i, task) :: rest =>
    let first := h.runDeferred i task
    let others := first.host.runAll rest
    ⟨first.result + others.result, others.host, first.events ++ others.events, first.log ++ others.log⟩

def turn (h : Host) : Report Nat :=
  let (batch, deferred) := h.deferred.takeTurn
  { h with deferred := deferred }.runAll batch

def pending (h : Host) : Nat := h.deferred.length

def register (h : Host) (m : BuiltinModule) : Report (Except LifecycleError Unit) :=
  match h.lifecycle.register m with
  | .ok l => { result := .ok (), host := { h with lifecycle := l } }
  | .error e => { result := .error e, host := h }

def changeFiles (h : Host) (f : Files.Tree → Files.Tree) : Host := { h with files := f h.files }

end Host

end Patchbay
