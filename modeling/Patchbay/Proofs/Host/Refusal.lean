import Patchbay.Proofs.Host.Shared
import Patchbay.Proofs.Lifecycle.Table

/-!
Owners that are refused. A refusal gives back what was taken for the owner, so nothing but an identity
is lost as long as the interpreter ran before. When it was started for the owner, its last reference goes
with the owner, and the interpreter ends for good. Of an interpreter that cannot even start, only that it
has not started is said.
-/
namespace Patchbay

namespace Lifecycle

theorem release_retain {l : Lifecycle} (held : 0 < l.active) : l.retain.1.release.1 = l := by
  obtain ⟨settings, state, active, modules, interpreter, live⟩ := l
  obtain ⟨n, rfl⟩ := Nat.exists_eq_succ_of_ne_zero (Nat.ne_of_gt held)
  rfl

theorem release_started {l : Lifecycle} (idle : l.active = 0) (modules : ModuleTable)
    (i : Option Interpreter) (state : InterpreterState) :
    (retain { l with modules := modules, interpreter := i, state := state }).1.release.1 =
      { l with modules := modules, state := .finalized, active := 0, interpreter := none } := by
  simp [retain, idle, release, finalize]

theorem createNamespace_refused {l : Lifecycle} {s t : Supply} {granted : Bool} {e : LifecycleError}
    (running : l.interpreter.isSome) (failed : l.createNamespace s granted = (.error e, t)) :
    e = .noRoom ∧ t = s.take.2 := by
  obtain ⟨i, running⟩ := Option.isSome_iff_exists.mp running
  unfold createNamespace at failed
  rw [running] at failed
  cases granted with
  | true => cases failed
  | false =>
    cases failed
    exact ⟨rfl, rfl⟩

end Lifecycle

namespace Owner

/-- All the ways in which an owner is refused, with the lifecycle and the supply that are left. -/
inductive Refusal (l : Lifecycle) (s : Supply) (room : Room) :
    LifecycleError → Lifecycle → Supply → Prop
  | ended (state : l.state = .finalized) : Refusal l s room .finalized l s
  | taken (state : l.state = .uninitialized) (there : l.modules.register? hostModule = none) :
      Refusal l s room (.nameTaken hostModuleName) l s
  | unstarted {modules : ModuleTable} (state : l.state = .uninitialized)
      (registered : l.modules.register? hostModule = some modules) (refused : room.starts = false) :
      Refusal l s room .noRoom { l with modules := modules } s
  | crowded (state : l.state = .ready) : Refusal l s room .noRoom l s.take.2
  | stillborn {modules : ModuleTable} (state : l.state = .uninitialized)
      (registered : l.modules.register? hostModule = some modules) (granted : room.starts = true) :
      Refusal l s room .noRoom
        { l with modules := modules, state := .finalized, active := 0, interpreter := none } s.take.2

theorem refusal_of_acquire {l k : Lifecycle} (s : Supply) {room : Room} {e : LifecycleError}
    (refused : l.acquire room.starts = (.error e, k)) : Refusal l s room e k s := by
  cases Lifecycle.acquire_refused refused with
  | ended state => exact .ended state
  | taken state there => exact .taken state there
  | unstarted state registered starts => exact .unstarted state registered starts

theorem refusal_of_release {l k : Lifecycle} {s : Supply} {room : Room} {log : List Log.Entry}
    (coherent : l.Coherent) (taken : l.acquire room.starts = (.ok log, k)) :
    Refusal l s room .noRoom k.release.1 s.take.2 := by
  obtain ⟨state, rfl⟩ | ⟨modules, state, registered, granted, rfl⟩ := Lifecycle.acquire_taken taken
  · rw [Lifecycle.release_retain (coherent.ready.mp state)]
    exact .crowded state
  · rw [Lifecycle.release_started (coherent.idle (by simp [state])).1]
    exact .stillborn state registered granted

theorem make_refusal {l : Lifecycle} {s : Supply} {settings : OwnerSettings} {room : Room}
    {e : LifecycleError} (coherent : l.Coherent) (failed : (make l s settings room).result = .error e) :
    Refusal l s room e (make l s settings room).lifecycle (make l s settings room).supply := by
  unfold make at failed ⊢
  split at failed
  · rename_i refused
    cases failed
    exact refusal_of_acquire s refused
  · rename_i log k taken
    have running := Option.isSome_of_eq_some (Lifecycle.acquire_ok coherent taken).2.2.2.2.2
    split at failed
    · cases failed
    · rename_i refused
      obtain ⟨rfl, rfl⟩ := Lifecycle.createNamespace_refused running refused
      cases failed
      exact refusal_of_release coherent taken

namespace Refusal

variable {l k : Lifecycle} {s t : Supply} {room : Room} {e : LifecycleError}

theorem supply (refusal : Refusal l s room e k t) : t = s ∨ t = s.take.2 := by
  cases refusal with
  | ended | taken | unstarted => exact .inl rfl
  | crowded | stillborn => exact .inr rfl

theorem counts (coherent : l.Coherent) (refusal : Refusal l s room e k t) :
    k.active = l.active ∧ k.live = l.live := by
  cases refusal with
  | ended | taken | unstarted | crowded => exact ⟨rfl, rfl⟩
  | stillborn state => exact ⟨(coherent.idle (by simp [state])).1.symm, rfl⟩

theorem untouched (refusal : Refusal l s room e k t)
    (settled : l.state ≠ .uninitialized ∨ e = .nameTaken hostModuleName) : k = l := by
  cases refusal with
  | ended | taken | crowded => rfl
  | unstarted state | stillborn state => simp [state] at settled

theorem unstarted_state (refusal : Refusal l s room e k t) (state : l.state = .uninitialized)
    (refused : room.starts = false) : k.state = .uninitialized := by
  cases refusal with
  | taken | unstarted => exact state
  | ended other | crowded other => simp [state] at other
  | stillborn _ _ granted => simp [refused] at granted

theorem stillborn_state (refusal : Refusal l s room e k t) (state : l.state = .uninitialized)
    (full : e = .noRoom) (granted : room.starts = true) :
    k.state = .finalized ∧ k.modules.names = l.modules.names ++ [hostModuleName] := by
  cases refusal with
  | taken => cases full
  | ended other | crowded other => simp [state] at other
  | unstarted _ _ refused => simp [granted] at refused
  | stillborn _ registered => exact ⟨rfl, ModuleTable.names_register registered⟩

end Refusal

end Owner

namespace Host

theorem spawn_finalized {h : Host} (ended : h.lifecycle.state = .finalized) (settings : OwnerSettings)
    (room : Room) : (h.spawn settings room).result = .error .finalized := by
  simp [spawn, Owner.make, Lifecycle.acquire_finalized ended]

theorem spawn_refused {h : Host} {settings : OwnerSettings} {room : Room} {e : LifecycleError}
    (failed : (h.spawn settings room).result = .error e) :
    (Owner.make h.lifecycle h.supply settings room).result = .error e ∧
      (h.spawn settings room).host = { h with
        lifecycle := (Owner.make h.lifecycle h.supply settings room).lifecycle
        supply := (Owner.make h.lifecycle h.supply settings room).supply } := by
  unfold spawn at failed ⊢
  dsimp only at failed ⊢
  split at failed
  · rename_i refused
    cases failed
    rw [refused]
    exact ⟨rfl, rfl⟩
  · cases failed

/-- A refused owner leaves the owners, the work that waits and both counts as they were, and no more of
the supply is used than one identity. If the interpreter ran or had ended, or its table had the name of
the host already, nothing of the lifecycle changes at all. If it was started for the owner, it has ended
for good, with the module of the host in its table. -/
theorem failed_spawn_undone {h : Host} (reachable : h.Reachable) {settings : OwnerSettings} {room : Room}
    {e : LifecycleError} (failed : (h.spawn settings room).result = .error e) :
    let k := (h.spawn settings room).host
    k = { h with lifecycle := k.lifecycle, supply := k.supply } ∧
      (h.spawn settings room).events = [] ∧
      (k.supply = h.supply ∨ k.supply = h.supply.take.2) ∧
      k.lifecycle.active = h.lifecycle.active ∧ k.lifecycle.live = h.lifecycle.live ∧
      (h.lifecycle.state ≠ .uninitialized ∨ e = .nameTaken hostModuleName →
        k.lifecycle = h.lifecycle) ∧
      (h.lifecycle.state = .uninitialized → room.starts = false →
        k.lifecycle.state = .uninitialized) ∧
      (h.lifecycle.state = .uninitialized → e = .noRoom → room.starts = true →
        k.lifecycle.state = .finalized ∧
          k.lifecycle.modules.names = h.lifecycle.modules.names ++ [hostModuleName] ∧
          ∀ later space, (k.spawn later space).result = .error .finalized) := by
  have coherent := reachable.regular.coherent
  obtain ⟨refused, left⟩ := spawn_refused failed
  have refusal := Owner.make_refusal coherent refused
  obtain ⟨active, live⟩ := refusal.counts coherent
  have events := (h.spawn_rest settings room).1
  intro k
  change k = _ at left
  rw [left]
  refine ⟨rfl, events, refusal.supply, active, live, refusal.untouched, refusal.unstarted_state, ?_⟩
  intro state full granted
  obtain ⟨ended, names⟩ := refusal.stillborn_state state full granted
  exact ⟨ended, names, spawn_finalized ended⟩

theorem second_spawn_undone :
    let h := ((opening {} {} {} []).after (.spawn {} {})).1
    (h.spawn {} ⟨true, false⟩).result = .error .noRoom ∧
      (h.spawn {} ⟨true, false⟩).host.lifecycle = h.lifecycle := by
  intro h
  have reachable : h.Reachable := .after _ (.opening ..)
  have refused : (h.spawn {} ⟨true, false⟩).result = .error .noRoom := rfl
  have undone := failed_spawn_undone reachable refused
  exact ⟨refused, undone.2.2.2.2.2.1 (.inl nofun)⟩

/-- The first owner of an interpreter with too little memory takes the interpreter with it. -/
theorem first_refusal_finalizes :
    let h := opening { memoryLimit := some 1 } {} {} []
    let k := (h.spawn {}).host
    h.Reachable ∧ (h.spawn {}).result = .error .noRoom ∧
      h.lifecycle.state = .uninitialized ∧ k.lifecycle.state = .finalized ∧
      h.lifecycle.modules.names = [] ∧ k.lifecycle.modules.names = ["ember"] ∧
      (k.spawn {}).result = .error .finalized :=
  ⟨.opening .., rfl, rfl, rfl, rfl, rfl, rfl⟩

end Host

end Patchbay
