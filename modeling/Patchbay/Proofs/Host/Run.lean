import Patchbay.Host
import Patchbay.Proofs.Identity
import Patchbay.Proofs.Owner

/-!
Runs of a host: everything that can happen to it, in any order, with what its owners send back. What
the world decides is part of a step: what the engine has room for, how the files change, and how many
identities go elsewhere in the process. The log is left out, since nothing reads it.
-/
namespace Patchbay.Host

inductive Step
  | spawn (settings : OwnerSettings) (room : Room)
  | free (i : Identity)
  | send (i : Identity) (m : Message)
  | sendLine (i : Identity) (line : String)
  | editorClosed (i : Identity) (text : Text.Utf8.Bytes)
  | editorSaved (i : Identity) (text : Text.Utf8.Bytes)
  | turn
  | register (m : BuiltinModule)
  | changeFiles (f : Files.Tree → Files.Tree)
  | skipIdentities (n : Nat)

def Step.addressee? : Step → Option Identity
  | .send i _ | .sendLine i _ | .editorClosed i _ | .editorSaved i _ => some i
  | _ => none

def Report.outcome {α : Type} (r : Report α) : Host × List Event := (r.host, r.events)

def after (h : Host) : Step → Host × List Event
  | .spawn settings room => (h.spawn settings room).outcome
  | .free i => (h.free i).outcome
  | .send i m => (h.send i m).outcome
  | .sendLine i line => (h.sendLine i line).outcome
  | .editorClosed i text => (h.editorClosed i text).outcome
  | .editorSaved i text => (h.editorSaved i text).outcome
  | .turn => h.turn.outcome
  | .register m => (h.register m).outcome
  | .changeFiles f => (h.changeFiles f, [])
  | .skipIdentities n => ({ h with supply := h.supply.skip n }, [])

def run (h : Host) : List Step → Host × List Event
  | [] => (h, [])
  | s :: rest => (((h.after s).1.run rest).1, (h.after s).2 ++ ((h.after s).1.run rest).2)

def opening (settings : InterpreterSettings) (supply : Supply) (files : Files.Tree)
    (roots : List String) : Host :=
  { lifecycle := .ofSettings settings, supply := supply, files := files, roots := roots }

theorem pending_schedule (i : Identity) (tasks : List DeferredTask) (q : DeferralQueue) :
    (tasks.foldl (·.schedule i) q).pending = q.pending ++ tasks.map (i, ·) := by
  induction tasks generalizing q with
  | nil => simp
  | cons task rest ih =>
    rw [List.foldl_cons, ih]
    simp [DeferralQueue.schedule]

theorem owner?_absorb (h : Host) (i j : Identity) (r : Response) :
    (h.absorb i r).host.owner? j = if j = i then (h.owner? j).map fun _ => r.owner else h.owner? j :=
  h.roster.get?_replace i j r.owner

theorem pending_absorb (h : Host) (i : Identity) (r : Response) :
    (h.absorb i r).host.deferred.pending =
      h.deferred.pending ++ r.tasks.map (r.owner.identity, ·) :=
  pending_schedule ..

/-- Lets the owner under an identity, if there is one, do something. -/
def deliver (h : Host) (i : Identity) (f : Owner → Option Response) : Host × List Event :=
  match (h.owner? i).bind f with
  | none => (h, [])
  | some r => ((h.absorb i r).host, r.events)

def Step.response? (s : Surroundings) (o : Owner) : Step → Option Response
  | .send _ m => some (o.handle s m)
  | .sendLine _ line => (Message.parse line).toOption.map (o.handle s)
  | .editorClosed _ text => some { owner := o.closeEditor text }
  | .editorSaved _ text => some (o.saveEditor text)
  | _ => none

theorem deliver_absent {h : Host} {i : Identity} (absent : h.owner? i = none)
    (f : Owner → Option Response) : h.deliver i f = (h, []) := by
  simp [deliver, absent]

theorem deliver_found {h : Host} {i : Identity} {o : Owner} (found : h.owner? i = some o)
    (f : Owner → Option Response) :
    h.deliver i f = match f o with
      | none => (h, [])
      | some r => ((h.absorb i r).host, r.events) := by
  simp only [deliver, found, Option.bind_some]

/-- What a delivery keeps holds after it, if it holds after whatever the owner does. -/
theorem deliver_keeps {h : Host} {i : Identity} {f : Owner → Option Response} {P : Host → Prop}
    (before : P h)
    (does : ∀ o r, h.owner? i = some o → f o = some r → P (h.absorb i r).host) :
    P (h.deliver i f).1 := by
  cases found : h.owner? i with
  | none => rw [deliver_absent found]; exact before
  | some o =>
    rw [deliver_found found]
    cases done : f o with
    | none => exact before
    | some r => exact does o r found done

theorem deliver_shared (h : Host) (i : Identity) (f : Owner → Option Response) :
    (h.deliver i f).1.lifecycle = h.lifecycle ∧ (h.deliver i f).1.supply = h.supply ∧
      (h.deliver i f).1.files = h.files ∧ (h.deliver i f).1.roots = h.roots := by
  refine deliver_keeps (P := fun k => k.lifecycle = h.lifecycle ∧ k.supply = h.supply ∧
    k.files = h.files ∧ k.roots = h.roots) ⟨rfl, rfl, rfl, rfl⟩ ?_
  intro o r _ _
  exact ⟨rfl, rfl, rfl, rfl⟩

theorem after_send (h : Host) (i : Identity) (m : Message) :
    (h.send i m).outcome = h.deliver i fun o => some (o.handle h.surroundings m) := by
  cases found : h.owner? i <;> simp [send, deliver, found, Report.outcome, absorb]

theorem after_addressed (h : Host) {s : Step} {i : Identity} (goes : s.addressee? = some i) :
    h.after s = h.deliver i fun o => s.response? h.surroundings o := by
  cases s <;> cases goes
  case send m => exact h.after_send i m
  case sendLine line =>
    cases parsed : Message.parse line with
    | error e =>
      cases found : h.owner? i <;>
        simp [after, sendLine, parsed, deliver, found, Step.response?, Report.outcome, Except.toOption]
    | ok m =>
      have sent := h.after_send i m
      simp only [Report.outcome] at sent
      simpa [after, sendLine, parsed, Step.response?, Report.outcome, Except.toOption] using sent
  case editorClosed text =>
    cases found : h.owner? i <;>
      simp [after, editorClosed, deliver, found, Step.response?, Report.outcome, absorb, update]
  case editorSaved text =>
    cases found : h.owner? i <;>
      simp [after, editorSaved, deliver, found, Step.response?, Report.outcome, absorb]

theorem runDeferred_host (h : Host) (i : Identity) (task : DeferredTask) :
    (h.runDeferred i task).host = (h.deliver i fun o => some (o.runTask h.surroundings task)).1 := by
  cases found : h.owner? i <;> simp [runDeferred, deliver, found, absorb]

theorem runDeferred_events (h : Host) (i : Identity) (task : DeferredTask) :
    (h.runDeferred i task).events = (h.deliver i fun o => some (o.runTask h.surroundings task)).2 := by
  cases found : h.owner? i <;> simp [runDeferred, deliver, found, absorb]

theorem runDeferred_result (h : Host) (i : Identity) (task : DeferredTask) :
    (h.runDeferred i task).result = (h.owner? i).toList.length := by
  cases found : h.owner? i <;> simp [runDeferred, found]

theorem task_responds {s : Surroundings} {o : Owner} {task : DeferredTask} {r : Response}
    (does : some (o.runTask s task) = some r) : o.Responds r := by
  cases does
  exact o.responds_runTask s task

theorem response_responds {s : Surroundings} {o : Owner} {step : Step} {r : Response}
    (does : step.response? s o = some r) : o.Responds r := by
  cases step <;> simp only [Step.response?, Option.some.injEq, reduceCtorEq] at does
  case send m =>
    subst does
    exact o.responds_handle s m
  case sendLine line =>
    obtain ⟨m, _, rfl⟩ := Option.map_eq_some_iff.mp does
    exact o.responds_handle s m
  case editorClosed text =>
    subst does
    exact ⟨rfl, by simp⟩
  case editorSaved text =>
    subst does
    exact o.responds_saveEditor text

theorem host_register (h : Host) (m : BuiltinModule) :
    ∃ l, h.lifecycle.Alike l ∧ (h.register m).host = { h with lifecycle := l } := by
  unfold register
  split
  · rename_i l ok
    exact ⟨l, Lifecycle.register_alike ok, rfl⟩
  · exact ⟨h.lifecycle, .refl _, rfl⟩

/-- What a step makes of a host. It goes to its addressee, if it has one, and else to what the owners share. -/
inductive Moves (h : Host) : Step → Host → Prop
  | spawns (settings : OwnerSettings) (room : Room) :
    Moves h (.spawn settings room) (h.spawn settings room).host
  | frees (i : Identity) : Moves h (.free i) (h.free i).host
  | delivers {s : Step} {i : Identity} (goes : s.addressee? = some i) :
    Moves h s (h.deliver i fun o => s.response? h.surroundings o).1
  | serves (work : List (Identity × DeferredTask)) : Moves h .turn (runAll { h with deferred := {} } work).host
  | registers {m : BuiltinModule} {l : Lifecycle} (alike : h.lifecycle.Alike l) :
    Moves h (.register m) { h with lifecycle := l }
  | files (f : Files.Tree → Files.Tree) : Moves h (.changeFiles f) (h.changeFiles f)
  | skips (n : Nat) : Moves h (.skipIdentities n) { h with supply := h.supply.skip n }

theorem moves (h : Host) (s : Step) : h.Moves s (h.after s).1 := by
  have delivers {s : Step} {i : Identity} (goes : s.addressee? = some i) : h.Moves s (h.after s).1 := by
    rw [after_addressed h goes]
    exact .delivers goes
  cases s with
  | spawn settings room => exact .spawns settings room
  | free i => exact .frees i
  | send | sendLine | editorClosed | editorSaved => exact delivers rfl
  | turn => exact .serves h.deferred.pending
  | register m =>
    obtain ⟨l, alike, host⟩ := h.host_register m
    change h.Moves (.register m) (h.register m).host
    rw [host]
    exact .registers alike
  | changeFiles f => exact .files f
  | skipIdentities n => exact .skips n

/-- What each piece of work keeps, all of it keeps. -/
theorem runAll_keeps {P : Host → Prop}
    (keeps : ∀ {k : Host} (i : Identity) (task : DeferredTask), P k →
      P (k.deliver i fun o => some (o.runTask k.surroundings task)).1)
    {h : Host} (before : P h) (work : List (Identity × DeferredTask)) : P (h.runAll work).host := by
  induction work generalizing h with
  | nil => exact before
  | cons w rest ih =>
    obtain ⟨i, task⟩ := w
    apply ih
    rw [runDeferred_host]
    exact keeps i task before

theorem runAll_lifecycle (h : Host) (work : List (Identity × DeferredTask)) :
    (h.runAll work).host.lifecycle = h.lifecycle :=
  runAll_keeps (P := fun k => k.lifecycle = h.lifecycle)
    (fun i _ same => (deliver_shared _ i _).1.trans same) rfl work

theorem spawn_rest (h : Host) (settings : OwnerSettings) (room : Room) :
    (h.spawn settings room).events = [] ∧ (h.spawn settings room).host.deferred = h.deferred := by
  unfold spawn
  dsimp only
  split <;> exact ⟨rfl, rfl⟩

theorem free_rest (h : Host) (i : Identity) :
    (h.free i).events = [] ∧ (h.free i).host.deferred = h.deferred ∧
      (h.free i).host.supply = h.supply := by
  unfold free
  split <;> exact ⟨rfl, rfl, rfl⟩

theorem events_register (h : Host) (m : BuiltinModule) : (h.register m).events = [] := by
  unfold register
  split <;> rfl

def present (h : Host) (i : Identity) : Bool := (h.owner? i).isSome

theorem present_absorb (h : Host) (i j : Identity) (r : Response) :
    (h.absorb i r).host.present j = h.present j := by
  rw [present, owner?_absorb, present]
  split
  · exact Option.isSome_map
  · rfl

theorem present_deliver (h : Host) (i j : Identity) (f : Owner → Option Response) :
    (h.deliver i f).1.present j = h.present j :=
  deliver_keeps (P := fun k => k.present j = h.present j) rfl fun _ r _ _ => h.present_absorb i j r

theorem present_free (h : Host) (i j : Identity) :
    (h.free i).host.present j = (h.present j && j != i) := by
  unfold free
  split
  · rename_i absent
    by_cases same : j = i
    · subst same
      simp [present, absent]
    · simp [same]
  · simp only [present, owner?, Roster.get?_erase]
    split <;> simp_all

theorem free_result (h : Host) (i : Identity) : (h.free i).result = h.present i := by
  unfold free
  split <;> simp_all [present]

inductive Told
  | spawned (result : Except LifecycleError Identity)
  | done (result : Bool)
  | read (result : Except ParseError Bool)
  | ran (number : Nat)
  | registered (result : Except LifecycleError Unit)
  | nothing

def told (h : Host) : Step → Told
  | .spawn settings room => .spawned (h.spawn settings room).result
  | .free i => .done (h.free i).result
  | .send i m => .done (h.send i m).result
  | .sendLine i line => .read (h.sendLine i line).result
  | .editorClosed i text => .done (h.editorClosed i text).result
  | .editorSaved i text => .done (h.editorSaved i text).result
  | .turn => .ran h.turn.result
  | .register m => .registered (h.register m).result
  | .changeFiles _ | .skipIdentities _ => .nothing

structure Moment where
  told : Told
  events : List Event
  host : Host

def moment (h : Host) (s : Step) : Moment := ⟨h.told s, (h.after s).2, (h.after s).1⟩

def trace (h : Host) : List Step → List Moment
  | [] => []
  | s :: rest => h.moment s :: (h.after s).1.trace rest

end Patchbay.Host
