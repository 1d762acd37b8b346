import Patchbay.Lifecycle

/-!
What the steps of a lifecycle do to its state, its count of references and its count of namespaces,
and the invariant that ties these to the interpreter. A refused start changes the table of modules, and
nothing here speaks of the table.
-/
namespace Patchbay.Lifecycle

/-- The interpreter runs exactly while references are taken, and within the limits that are set. Nothing was
made before it started. -/
structure Coherent (l : Lifecycle) : Prop where
  ready : l.state = .ready ↔ 0 < l.active
  running : l.interpreter.isSome ↔ 0 < l.active
  limits : ∀ i ∈ l.interpreter, i = .start l.settings
  untouched : l.state = .uninitialized → l.live = 0

/-- Two lifecycles agree on all but their tables of modules. -/
structure Alike (l k : Lifecycle) : Prop where
  settings : k.settings = l.settings
  state : k.state = l.state
  active : k.active = l.active
  interpreter : k.interpreter = l.interpreter
  live : k.live = l.live

theorem Alike.refl (l : Lifecycle) : l.Alike l := ⟨rfl, rfl, rfl, rfl, rfl⟩

theorem coherent_ofSettings (s : InterpreterSettings) : (ofSettings s).Coherent := by
  constructor <;> simp [ofSettings]

theorem Coherent.alike {l k : Lifecycle} (coherent : l.Coherent) (alike : l.Alike k) : k.Coherent := by
  obtain ⟨ready, running, limits, untouched⟩ := coherent
  constructor
  · rw [alike.state, alike.active]; exact ready
  · rw [alike.interpreter, alike.active]; exact running
  · rw [alike.interpreter, alike.settings]; exact limits
  · rw [alike.state, alike.live]; exact untouched

theorem Coherent.idle {l : Lifecycle} (coherent : l.Coherent) (ended : l.state ≠ .ready) :
    l.active = 0 ∧ l.interpreter = none := by
  have none_taken : ¬ 0 < l.active := fun taken => ended (coherent.ready.mpr taken)
  refine ⟨by omega, ?_⟩
  have := mt coherent.running.mp none_taken
  simpa using this

theorem register_alike {l k : Lifecycle} {m : BuiltinModule} (ok : l.register m = .ok k) : l.Alike k := by
  unfold register at ok
  split at ok
  · cases ok
  · split at ok
    · cases ok
      exact ⟨rfl, rfl, rfl, rfl, rfl⟩
    · cases ok

theorem start_error {l k : Lifecycle} {granted : Bool} {e : LifecycleError}
    (failed : l.start granted = (.error e, k)) : l.Alike k := by
  unfold start at failed
  split at failed
  · cases failed
    exact ⟨rfl, rfl, rfl, rfl, rfl⟩
  · split at failed <;> cases failed
    exact ⟨rfl, rfl, rfl, rfl, rfl⟩

theorem start_ok {l k : Lifecycle} {granted : Bool} {log : List Log.Entry}
    (ok : l.start granted = (.ok log, k)) :
    k.state = .ready ∧ k.active = l.active ∧ k.live = l.live ∧ k.settings = l.settings ∧
      k.interpreter = some (.start l.settings) := by
  unfold start at ok
  split at ok
  · cases ok
  · split at ok <;> cases ok
    exact ⟨rfl, rfl, rfl, rfl, rfl⟩

/-- A reference that is refused leaves the lifecycle as it was, up to the table of modules. -/
theorem acquire_error {l k : Lifecycle} {granted : Bool} {e : LifecycleError}
    (failed : l.acquire granted = (.error e, k)) : l.Alike k := by
  unfold acquire at failed
  split at failed
  · cases failed
    exact ⟨rfl, rfl, rfl, rfl, rfl⟩
  · cases failed
  · split at failed
    · rename_i refused
      cases failed
      exact start_error refused
    · cases failed

/-- A reference that is taken counts one more on an interpreter that runs. -/
theorem acquire_ok {l k : Lifecycle} {granted : Bool} {log : List Log.Entry} (coherent : l.Coherent)
    (ok : l.acquire granted = (.ok log, k)) :
    l.state ≠ .finalized ∧ k.state = .ready ∧ k.active = l.active + 1 ∧ k.live = l.live ∧
      k.settings = l.settings ∧ k.interpreter = some (.start l.settings) := by
  unfold acquire at ok
  split at ok
  · cases ok
  · rename_i ready
    cases ok
    obtain ⟨i, runs⟩ := Option.isSome_iff_exists.mp (coherent.running.mpr (coherent.ready.mp ready))
    have limits := coherent.limits i runs
    exact ⟨by simp [ready], ready, rfl, rfl, rfl, limits ▸ runs⟩
  · rename_i fresh
    split at ok
    · cases ok
    · rename_i started
      obtain ⟨ready, active, live, settings, running⟩ := start_ok started
      cases ok
      exact ⟨by simp [fresh], ready, congrArg (· + 1) active, live, settings, running⟩

theorem acquire_finalized {l : Lifecycle} (ended : l.state = .finalized) (granted : Bool) :
    l.acquire granted = (.error .finalized, l) := by
  simp [acquire, ended]

theorem Coherent.acquired {l k : Lifecycle} {granted : Bool} {log : List Log.Entry}
    (coherent : l.Coherent) (ok : l.acquire granted = (.ok log, k)) : k.Coherent := by
  obtain ⟨_, ready, active, _, settings, running⟩ := acquire_ok coherent ok
  constructor
  · simp [ready, active]
  · simp [running, active]
  · simp [running, settings]
  · simp [ready]

theorem release_idle {l : Lifecycle} (idle : l.active = 0) : l.release.1 = l := by
  simp [release, idle]

@[simp] theorem release_active (l : Lifecycle) : l.release.1.active = l.active - 1 := by
  unfold release
  split <;> simp_all [finalize]

@[simp] theorem release_settings (l : Lifecycle) : l.release.1.settings = l.settings := by
  unfold release
  split <;> rfl

@[simp] theorem release_live (l : Lifecycle) : l.release.1.live = l.live := by
  unfold release
  split <;> rfl

theorem release_last {l : Lifecycle} (last : l.active = 1) :
    l.release.1.state = .finalized ∧ l.release.1.interpreter = none := by
  simp [release, last, finalize]

theorem release_inner {l : Lifecycle} (more : 1 < l.active) :
    l.release.1.state = l.state ∧ l.release.1.interpreter = l.interpreter := by
  unfold release
  split
  · omega
  · omega
  · exact ⟨rfl, rfl⟩

theorem Coherent.released {l : Lifecycle} (coherent : l.Coherent) : l.release.1.Coherent := by
  obtain idle | last | inner : l.active = 0 ∨ l.active = 1 ∨ 1 < l.active := by omega
  · rw [release_idle idle]
    exact coherent
  · obtain ⟨state, interpreter⟩ := release_last last
    constructor <;> simp [state, interpreter, last]
  · obtain ⟨state, interpreter⟩ := release_inner inner
    have before := coherent.ready.mpr (by omega)
    have runs := coherent.running.mpr (by omega)
    constructor
    · simp [state, before]
      omega
    · simp [interpreter, runs]
      omega
    · rw [interpreter, release_settings]
      exact coherent.limits
    · simp [state, before]

theorem createNamespace_ok {l k : Lifecycle} {s t : Supply} {granted : Bool} {n : Namespace}
    {log : List Log.Entry} (ok : l.createNamespace s granted = (.ok (n, k, log), t)) :
    l.interpreter.isSome ∧ k = { l with live := l.live + 1 } ∧ t = s.take.2 ∧
      n.identity = s.take.1 := by
  unfold createNamespace at ok
  split at ok
  · cases ok
  · rename_i running
    cases granted with
    | false => cases ok
    | true =>
      cases ok
      exact ⟨by simp [running], rfl, rfl, rfl⟩

theorem createNamespace_error {l : Lifecycle} {s t : Supply} {granted : Bool} {e : LifecycleError}
    (failed : l.createNamespace s granted = (.error e, t)) : t = s ∨ t = s.take.2 := by
  unfold createNamespace at failed
  split at failed
  · cases failed
    exact .inl rfl
  · cases granted with
    | false =>
      cases failed
      exact .inr rfl
    | true => cases failed

theorem createNamespace_stopped {l : Lifecycle} (stopped : l.interpreter = none) (s : Supply)
    (granted : Bool) : l.createNamespace s granted = (.error .notReady, s) := by
  simp [createNamespace, stopped]

theorem Coherent.created {l k : Lifecycle} {s t : Supply} {granted : Bool} {n : Namespace}
    {log : List Log.Entry} (coherent : l.Coherent)
    (ok : l.createNamespace s granted = (.ok (n, k, log), t)) : k.Coherent := by
  obtain ⟨running, rfl, -, -⟩ := createNamespace_ok ok
  have ready := coherent.ready.mpr (coherent.running.mp running)
  exact ⟨coherent.ready, coherent.running, coherent.limits, by simp [ready]⟩

theorem Coherent.dropped {l : Lifecycle} (coherent : l.Coherent) (n : Namespace) :
    (l.dropNamespace n).1.Coherent := by
  refine ⟨coherent.ready, coherent.running, coherent.limits, ?_⟩
  intro fresh
  simp [dropNamespace, coherent.untouched fresh]

@[simp] theorem dropNamespace_active (l : Lifecycle) (n : Namespace) :
    (l.dropNamespace n).1.active = l.active := rfl

@[simp] theorem dropNamespace_live (l : Lifecycle) (n : Namespace) :
    (l.dropNamespace n).1.live = l.live - 1 := rfl

@[simp] theorem dropNamespace_state (l : Lifecycle) (n : Namespace) :
    (l.dropNamespace n).1.state = l.state := rfl

end Patchbay.Lifecycle
