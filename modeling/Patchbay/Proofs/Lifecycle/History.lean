import Patchbay.Lifecycle.Bench
import Patchbay.Proofs.Lifecycle
import Mathlib.Data.List.Destutter

/-!
Whole histories of one lifecycle: references and leases taken and given back in any order, also ones
that cancel each other, and namespaces that outlive the interpreter. What the engine grants is part of
the history, so every refusal is covered. Running scripts changes no lifecycle and is left out.
-/
namespace Patchbay

def InterpreterState.next? : InterpreterState → Option InterpreterState
  | uninitialized => some ready
  | ready => some finalized
  | finalized => none

namespace Bench

/-- What can happen to a lifecycle; where the engine is asked, its answer is part of the step. -/
inductive Step
  | register (m : BuiltinModule)
  | acquire (granted : Bool)
  | release
  | lease (granted : Bool)
  | dropLease (index : Nat)
  | createNamespace (granted : Bool)
  | dropNamespace (index : Nat)

structure Tally where
  taken : Nat := 0
  /-- References that were given back while one was taken. -/
  returned : Nat := 0
  made : Nat := 0
  dropped : Nat := 0

def after (b : Bench) : Step → Bench
  | .register m => (b.register m).bench
  | .acquire granted => (b.acquire granted).bench
  | .release => b.release.bench
  | .lease granted => (b.lease granted).bench
  | .dropLease index => (b.dropLease index).bench
  | .createNamespace granted => (b.createNamespace granted).bench
  | .dropNamespace index => (b.dropNamespace index).bench

/-- The tally with a step added, by what the step itself reports. -/
def count (b : Bench) (t : Tally) : Step → Tally
  | .register _ => t
  | .acquire granted =>
    if (b.acquire granted).result.isOk then { t with taken := t.taken + 1 } else t
  | .release => if 0 < b.lifecycle.active then { t with returned := t.returned + 1 } else t
  | .lease granted => if (b.lease granted).result.isOk then { t with taken := t.taken + 1 } else t
  | .dropLease index =>
    if (b.dropLease index).result && 0 < b.lifecycle.active then { t with returned := t.returned + 1 }
    else t
  | .createNamespace granted =>
    if (b.createNamespace granted).result.isOk then { t with made := t.made + 1 } else t
  | .dropNamespace index =>
    if (b.dropNamespace index).result then { t with dropped := t.dropped + 1 } else t

def run (b : Bench) : List Step → Bench
  | [] => b
  | s :: rest => (b.after s).run rest

def tally (b : Bench) (t : Tally) : List Step → Tally
  | [] => t
  | s :: rest => (b.after s).tally (b.count t s) rest

def visited (b : Bench) : List Step → List InterpreterState
  | [] => [b.lifecycle.state]
  | s :: rest => b.lifecycle.state :: (b.after s).visited rest

def present (b : Bench) : Nat := b.namespaces.countP Option.isSome

/-- What a step did to the lifecycle, to the namespaces and to the tally. -/
inductive Change (l : Lifecycle) (present : Nat) (t : Tally) : Lifecycle → Nat → Tally → Prop
  | none {k : Lifecycle} (alike : l.Alike k) : Change l present t k present t
  | taken {k : Lifecycle} {granted : Bool} {log : List Log.Entry}
      (ok : l.acquire granted = (.ok log, k)) :
      Change l present t k present { t with taken := t.taken + 1 }
  | returned (held : 0 < l.active) :
      Change l present t l.release.1 present { t with returned := t.returned + 1 }
  | made {k : Lifecycle} {s : Supply} {granted : Bool} {n : Namespace} {log : List Log.Entry} {u : Supply}
      (ok : l.createNamespace s granted = (.ok (n, k, log), u)) :
      Change l present t k (present + 1) { t with made := t.made + 1 }
  | dropped {n : Namespace} {rest : Nat} (one : rest + 1 = present) :
      Change l present t (l.dropNamespace n).1 rest { t with dropped := t.dropped + 1 }

theorem change_of_release (l : Lifecycle) (present : Nat) (t : Tally) :
    Change l present t l.release.1 present
      (if 0 < l.active then { t with returned := t.returned + 1 } else t) := by
  split
  · rename_i held
    exact .returned held
  · rename_i idle
    rw [Lifecycle.release_idle (by omega)]
    exact .none (.refl _)

theorem present_set {b : Bench} {index : Nat} {n : Namespace}
    (found : b.namespaces[index]?.join = some n) :
    (b.namespaces.set index none).countP Option.isSome + 1 = b.present := by
  obtain ⟨bound, there⟩ := List.getElem?_eq_some_iff.mp (Option.join_eq_some_iff.mp found)
  have one : 0 < b.namespaces.countP Option.isSome :=
    List.countP_pos_iff.mpr ⟨some n, there ▸ List.getElem_mem bound, rfl⟩
  rw [List.countP_set bound, there, present]
  simp
  omega

theorem change_after (b : Bench) (t : Tally) (s : Step) :
    Change b.lifecycle b.present t (b.after s).lifecycle (b.after s).present (b.count t s) := by
  cases s with
  | register m =>
    simp only [after, register, count]
    split
    · rename_i ok
      exact .none (Lifecycle.register_alike ok)
    · exact .none (.refl _)
  | acquire granted =>
    rcases asked : b.lifecycle.acquire granted with ⟨e | log, l⟩
    · simp only [after, acquire, count, asked]
      exact .none (Lifecycle.acquire_error asked)
    · simp only [after, acquire, count, asked]
      exact .taken asked
  | release => exact change_of_release b.lifecycle b.present t
  | lease granted =>
    rcases asked : b.lifecycle.acquire granted with ⟨e | log, l⟩
    · simp only [after, lease, count, asked]
      exact .none (Lifecycle.acquire_error asked)
    · simp only [after, lease, count, asked]
      exact .taken asked
  | dropLease index =>
    by_cases held : b.leases[index]? = some true
    · simpa [after, dropLease, count, held, present] using change_of_release b.lifecycle b.present t
    · simpa [after, dropLease, count, held] using Change.none (.refl _)
  | createNamespace granted =>
    rcases asked : b.lifecycle.createNamespace b.supply granted with ⟨e | ⟨n, l, log⟩, s⟩
    · simp only [after, createNamespace, count, asked]
      exact .none (.refl _)
    · simp only [after, createNamespace, count, asked, present, List.countP_append]
      exact .made asked
  | dropNamespace index =>
    cases found : b.namespaces[index]?.join with
    | none =>
      simp only [after, dropNamespace, count, found]
      exact .none (.refl _)
    | some n =>
      simp only [after, dropNamespace, count, found]
      exact .dropped (present_set found)

structure Kept (l : Lifecycle) (present : Nat) (t : Tally) : Prop where
  coherent : l.Coherent
  references : l.active + t.returned = t.taken
  namespaces : l.live + t.dropped = t.made
  live : l.live = present
  unstarted : l.state = .uninitialized → t.taken = 0

theorem Kept.change {l k : Lifecycle} {p q : Nat} {t u : Tally} (kept : Kept l p t)
    (change : Change l p t k q u) : Kept k q u := by
  obtain ⟨coherent, references, namespaces, live, unstarted⟩ := kept
  cases change with
  | none alike =>
    refine ⟨coherent.alike alike, ?_, ?_, ?_, ?_⟩
    · rw [alike.active]; exact references
    · rw [alike.live]; exact namespaces
    · rw [alike.live]; exact live
    · rw [alike.state]; exact unstarted
  | taken ok =>
    obtain ⟨_, ready, active, same, _⟩ := Lifecycle.acquire_ok coherent ok
    refine ⟨coherent.acquired ok, ?_, ?_, ?_, ?_⟩
    · simp only [active]; omega
    · simp only [same]; exact namespaces
    · rw [same]; exact live
    · simp [ready]
  | returned held =>
    refine ⟨coherent.released, ?_, ?_, ?_, ?_⟩
    · simp only [Lifecycle.release_active]; omega
    · simpa using namespaces
    · simpa using live
    · intro fresh
      by_cases last : l.active = 1
      · simp [(Lifecycle.release_last last).1] at fresh
      · rw [(Lifecycle.release_inner (by omega)).1] at fresh
        exact unstarted fresh
  | made ok =>
    have next := coherent.created ok
    obtain ⟨_, rfl, _, _⟩ := Lifecycle.createNamespace_ok ok
    refine ⟨next, references, ?_, ?_, unstarted⟩
    · simp only []; omega
    · simp only [live]
  | dropped one =>
    refine ⟨coherent.dropped _, by simpa using references, ?_, ?_, by simpa using unstarted⟩
    · simp only [Lifecycle.dropNamespace_live]; omega
    · simp only [Lifecycle.dropNamespace_live]; omega

theorem Change.advances {l k : Lifecycle} {p q : Nat} {t u : Tally} (coherent : l.Coherent)
    (change : Change l p t k q u) : k.state = l.state ∨ l.state.next? = some k.state := by
  cases change with
  | none alike => exact .inl alike.state
  | taken ok =>
    obtain ⟨open_, ready, _⟩ := Lifecycle.acquire_ok coherent ok
    cases before : l.state with
    | uninitialized => exact .inr (by simp [InterpreterState.next?, ready])
    | ready => exact .inl ready
    | finalized => exact absurd before open_
  | returned held =>
    by_cases last : l.active = 1
    · right
      rw [coherent.ready.mpr held, (Lifecycle.release_last last).1]
      rfl
    · exact .inl (Lifecycle.release_inner (by omega)).1
  | made ok =>
    obtain ⟨_, rfl, _, _⟩ := Lifecycle.createNamespace_ok ok
    exact .inl rfl
  | dropped => exact .inl rfl

theorem kept_run {b : Bench} {t : Tally} (kept : Kept b.lifecycle b.present t) (steps : List Step) :
    Kept (b.run steps).lifecycle (b.run steps).present (b.tally t steps) := by
  induction steps generalizing b t with
  | nil => exact kept
  | cons s rest ih => exact ih (kept.change (change_after b t s))

theorem finalized_run {b : Bench} {t : Tally} (kept : Kept b.lifecycle b.present t)
    (ended : b.lifecycle.state = .finalized) (later : List Step) :
    (b.run later).lifecycle.state = .finalized := by
  induction later generalizing b t with
  | nil => exact ended
  | cons s rest ih =>
    have change := change_after b t s
    apply ih (kept.change change)
    rcases change.advances kept.coherent with same | moved
    · rw [same, ended]
    · simp [ended, InterpreterState.next?] at moved

def ahead : InterpreterState → List InterpreterState
  | .uninitialized => [.uninitialized, .ready, .finalized]
  | .ready => [.ready, .finalized]
  | .finalized => [.finalized]

theorem ahead_of_next {s k : InterpreterState} (next : s.next? = some k) : ahead s = s :: ahead k := by
  cases s <;> cases next <;> rfl

theorem visited_cons (b : Bench) (steps : List Step) :
    ∃ rest, b.visited steps = b.lifecycle.state :: rest := by
  cases steps with
  | nil => exact ⟨[], rfl⟩
  | cons s rest => exact ⟨_, rfl⟩

/-- The state goes its way in order and comes to no stage twice. -/
theorem visited_in_order {b : Bench} {t : Tally} (kept : Kept b.lifecycle b.present t)
    (steps : List Step) : (b.visited steps).destutter (· ≠ ·) <+: ahead b.lifecycle.state := by
  induction steps generalizing b t with
  | nil => cases state : b.lifecycle.state <;> simp [visited, ahead, state]
  | cons s rest ih =>
    have change := change_after b t s
    obtain ⟨stages, visits⟩ := visited_cons (b.after s) rest
    have later := ih (kept.change change)
    simp only [visited, visits, List.destutter_cons', List.destutter'_cons] at later ⊢
    rcases change.advances kept.coherent with same | moved
    · rw [same] at later ⊢
      simpa using later
    · have apart : b.lifecycle.state ≠ (b.after s).lifecycle.state := by
        intro same
        rw [← same] at moved
        cases state : b.lifecycle.state <;> simp [state, InterpreterState.next?] at moved
      rw [if_pos apart, ahead_of_next moved]
      exact (List.prefix_cons_inj _).mpr later

/-- In every history of a lifecycle the interpreter runs exactly while references are taken, the state
goes from its first stage to its last without return, the end is final, and both counts are what was
taken or made less what was given back or dropped. -/
theorem history_accounts (settings : InterpreterSettings) (supply : Supply) (files : Files.Tree)
    (steps : List Step) :
    let start : Bench := { lifecycle := .ofSettings settings, supply := supply, files := files }
    let b := start.run steps
    let l := b.lifecycle
    let t := start.tally {} steps
    (l.state = .ready ↔ 0 < l.active) ∧
      (l.interpreter.isSome ↔ 0 < l.active) ∧
      (l.state = .uninitialized → l.active = 0 ∧ l.live = 0 ∧ t.taken = 0) ∧
      (start.visited steps).destutter (· ≠ ·) <+: [.uninitialized, .ready, .finalized] ∧
      (l.state = .finalized → ∀ later granted,
        ((b.run later).acquire granted).result = .error .finalized ∧
        ((b.run later).lease granted).result = .error .finalized ∧
        ((b.run later).createNamespace granted).result = .error .notReady) ∧
      (l.active = 0 → b.release.bench = b ∧ ∀ index, (b.dropLease index).bench.lifecycle = l) ∧
      l.active + t.returned = t.taken ∧
      l.live + t.dropped = t.made := by
  intro start b l t
  have fresh : Kept start.lifecycle start.present {} :=
    ⟨Lifecycle.coherent_ofSettings settings, rfl, rfl, rfl, fun _ => rfl⟩
  have kept : Kept l b.present t := kept_run fresh steps
  refine ⟨kept.coherent.ready, kept.coherent.running, ?_, visited_in_order fresh steps, ?_, ?_,
    kept.references, kept.namespaces⟩
  · intro unstarted
    exact ⟨(kept.coherent.idle (by simp [unstarted])).1, kept.coherent.untouched unstarted,
      kept.unstarted unstarted⟩
  · intro ended later granted
    have final := finalized_run kept ended later
    have stopped := ((kept_run kept later).coherent.idle (by simp [final])).2
    refine ⟨?_, ?_, ?_⟩
    · simp [acquire, Lifecycle.acquire_finalized final]
    · simp [lease, Lifecycle.acquire_finalized final]
    · simp [createNamespace, Lifecycle.createNamespace_stopped stopped]
  · intro idle
    have same : l.release.1 = l := Lifecycle.release_idle idle
    refine ⟨?_, ?_⟩
    · simp only [release]
      rw [same]
    · intro index
      by_cases held : b.leases[index]? = some true
      · simpa [dropLease, held] using same
      · simp [dropLease, held, l]

end Bench

end Patchbay
