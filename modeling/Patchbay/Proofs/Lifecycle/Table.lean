import Patchbay.Proofs.Lifecycle
import Mathlib.Data.List.Nodup
import Mathlib.Tactic.Common

/-!
The table of modules in the life of an interpreter. Names come to its end, one at a time and none twice.
The module of the host comes last of all, when the interpreter starts; a table that has its name already
keeps the interpreter from starting. That the table has the name after a start that was refused is part
of what is said here, so a refused start is told apart from one that never was.
-/
namespace Patchbay

namespace ModuleTable

theorem get?_isSome {t : ModuleTable} {name : String} : (t.get? name).isSome ↔ name ∈ t.names := by
  simp [get?, names]

theorem register?_taken {t : ModuleTable} {m : BuiltinModule} (taken : m.name ∈ t.names) :
    t.register? m = none := by
  rw [register?, if_pos (get?_isSome.mpr taken)]

theorem register?_free {t : ModuleTable} {m : BuiltinModule} (free : m.name ∉ t.names) :
    t.register? m = some ⟨t.modules ++ [m]⟩ := by
  rw [register?, if_neg (mt get?_isSome.mp free)]

theorem names_register {t u : ModuleTable} {m : BuiltinModule} (ok : t.register? m = some u) :
    u.names = t.names ++ [m.name] := by
  unfold register? at ok
  split at ok <;> cases ok
  simp [names]

theorem nodup_register {t u : ModuleTable} {m : BuiltinModule} (ok : t.register? m = some u)
    (distinct : t.names.Nodup) : u.names.Nodup := by
  have free : m.name ∉ t.names := by
    intro taken
    rw [register?_taken taken] at ok
    cases ok
  rw [names_register ok]
  exact distinct.append (List.nodup_singleton _) (List.disjoint_singleton.mpr free)

end ModuleTable

namespace Lifecycle

theorem acquire_taken {l k : Lifecycle} {granted : Bool} {log : List Log.Entry}
    (taken : l.acquire granted = (.ok log, k)) :
    (l.state = .ready ∧ k = l.retain.1) ∨
      ∃ modules, l.state = .uninitialized ∧ l.modules.register? hostModule = some modules ∧
        granted = true ∧
        k = (retain { l with
          modules := modules, interpreter := some (.start l.settings), state := .ready }).1 := by
  unfold acquire at taken
  split at taken
  · cases taken
  · rename_i state
    cases taken
    exact .inl ⟨state, rfl⟩
  · rename_i state
    unfold start at taken
    cases registered : l.modules.register? hostModule with
    | none =>
      rw [registered] at taken
      cases taken
    | some modules =>
      cases granted with
      | false =>
        rw [registered] at taken
        cases taken
      | true =>
        rw [registered] at taken
        cases taken
        exact .inr ⟨modules, state, rfl, rfl, rfl⟩

/-- How a reference is refused, and the lifecycle that is left. -/
inductive Refused (l : Lifecycle) (granted : Bool) : LifecycleError → Lifecycle → Prop
  | ended (state : l.state = .finalized) : Refused l granted .finalized l
  | taken (state : l.state = .uninitialized) (there : l.modules.register? hostModule = none) :
      Refused l granted (.nameTaken hostModuleName) l
  | unstarted {modules : ModuleTable} (state : l.state = .uninitialized)
      (registered : l.modules.register? hostModule = some modules) (refused : granted = false) :
      Refused l granted .noRoom { l with modules := modules }

theorem acquire_refused {l k : Lifecycle} {granted : Bool} {e : LifecycleError}
    (failed : l.acquire granted = (.error e, k)) : Refused l granted e k := by
  unfold acquire at failed
  split at failed
  · rename_i state
    cases failed
    exact .ended state
  · cases failed
  · rename_i state
    unfold start at failed
    cases registered : l.modules.register? hostModule with
    | none =>
      rw [registered] at failed
      cases failed
      exact .taken state registered
    | some modules =>
      cases granted with
      | true =>
        rw [registered] at failed
        cases failed
      | false =>
        rw [registered] at failed
        cases failed
        exact .unstarted state registered rfl

theorem acquire_blocked {l : Lifecycle} (state : l.state = .uninitialized)
    (taken : hostModuleName ∈ l.modules.names) (granted : Bool) :
    l.acquire granted = (.error (.nameTaken hostModuleName), l) := by
  have none : l.modules.register? hostModule = none := ModuleTable.register?_taken taken
  simp [acquire, state, start, none]

theorem acquire_nameTaken {l : Lifecycle} {granted : Bool} {name : String}
    (failed : (l.acquire granted).1 = .error (.nameTaken name)) :
    l.state = .uninitialized ∧ hostModuleName ∈ l.modules.names := by
  have asked : l.acquire granted = (.error (.nameTaken name), (l.acquire granted).2) := by rw [← failed]
  generalize (l.acquire granted).2 = k at asked
  generalize named : LifecycleError.nameTaken name = e at asked
  cases acquire_refused asked with
  | ended => cases named
  | unstarted => cases named
  | taken state there =>
    refine ⟨state, ?_⟩
    by_contra free
    rw [ModuleTable.register?_free (m := hostModule) free] at there
    cases there

theorem register_closed {l : Lifecycle} (started : l.state ≠ .uninitialized) (m : BuiltinModule) :
    l.register m = .error (.registrationClosed m.name) := by
  rw [register, if_pos (by simpa using started)]

theorem register_open {l : Lifecycle} (state : l.state = .uninitialized) {m : BuiltinModule}
    (free : m.name ∉ l.modules.names) :
    l.register m = .ok { l with modules := ⟨l.modules.modules ++ [m]⟩ } := by
  simp [register, state, ModuleTable.register?_free free]

theorem register_accepted {l k : Lifecycle} {m : BuiltinModule} (ok : l.register m = .ok k) :
    ∃ modules, l.state = .uninitialized ∧ l.modules.register? m = some modules ∧
      k = { l with modules := modules } := by
  unfold register at ok
  split at ok
  · cases ok
  · rename_i state
    split at ok
    · rename_i modules registered
      cases ok
      exact ⟨modules, by simpa using state, registered, rfl⟩
    · cases ok

/-- The name that taking a reference brings to the table, if it is to start the interpreter. -/
def starting (l : Lifecycle) : List String :=
  if l.state = .uninitialized ∧ hostModuleName ∉ l.modules.names then [hostModuleName] else []

/-- A lifecycle goes on from another one, and names have come to its table. -/
structure Onward (l k : Lifecycle) (added : List String) : Prop where
  grows : k.modules.names = l.modules.names ++ added
  distinct : l.modules.names.Nodup → k.modules.names.Nodup
  closed : l.state ≠ .uninitialized → k.state ≠ .uninitialized ∧ k.modules = l.modules
  opened : l.state = .uninitialized → k.state ≠ .uninitialized →
    ∃ earlier, k.modules.names = earlier ++ [hostModuleName]
  blocked : l.state = .uninitialized → hostModuleName ∈ l.modules.names → k.state = .uninitialized
  ended : l.state = .finalized → k.state = .finalized

namespace Onward

variable {l k : Lifecycle}

theorem of_same (state : k.state = l.state) (modules : k.modules = l.modules) : Onward l k [] := by
  refine ⟨by rw [modules, List.append_nil], fun distinct => modules ▸ distinct, ?_, ?_, ?_, ?_⟩
  · intro started
    exact ⟨state ▸ started, modules⟩
  · intro fresh started
    exact absurd (state.trans fresh) started
  · intro fresh _
    exact state.trans fresh
  · exact state.trans

theorem refl (l : Lifecycle) : Onward l l [] := of_same rfl rfl

theorem trans {j : Lifecycle} {added more : List String} (first : Onward l k added)
    (second : Onward k j more) : Onward l j (added ++ more) := by
  refine ⟨?_, fun distinct => second.distinct (first.distinct distinct), ?_, ?_, ?_,
    fun halted => second.ended (first.ended halted)⟩
  · rw [second.grows, first.grows, List.append_assoc]
  · intro started
    obtain ⟨still, same⟩ := first.closed started
    obtain ⟨after, later⟩ := second.closed still
    exact ⟨after, later.trans same⟩
  · intro fresh started
    by_cases between : k.state = .uninitialized
    · exact second.opened between started
    · obtain ⟨earlier, names⟩ := first.opened fresh between
      exact ⟨earlier, (second.closed between).2 ▸ names⟩
  · intro fresh taken
    apply second.blocked (first.blocked fresh taken)
    rw [first.grows]
    exact List.mem_append_left _ taken

theorem trans_nil {j : Lifecycle} {added : List String} (first : Onward l k added)
    (second : Onward k j []) : Onward l j added :=
  List.append_nil added ▸ first.trans second

end Onward

theorem onward_register {l k : Lifecycle} {m : BuiltinModule} (ok : l.register m = .ok k) :
    Onward l k [m.name] := by
  obtain ⟨modules, state, registered, rfl⟩ := register_accepted ok
  exact ⟨ModuleTable.names_register registered, ModuleTable.nodup_register registered,
    fun started => absurd state started, fun _ started => absurd state started, fun _ _ => state,
    fun halted => absurd (state.symm.trans halted) nofun⟩

theorem onward_acquire (l : Lifecycle) (granted : Bool) :
    Onward l (l.acquire granted).2 l.starting := by
  -- With a start, granted or not, the module of the host comes to the table.
  have started {modules : ModuleTable} (state : l.state = .uninitialized)
      (registered : l.modules.register? hostModule = some modules) :
      hostModuleName ∉ l.modules.names ∧ l.starting = [hostModuleName] := by
    have free : hostModuleName ∉ l.modules.names := by
      intro taken
      rw [ModuleTable.register?_taken (m := hostModule) taken] at registered
      cases registered
    exact ⟨free, if_pos ⟨state, free⟩⟩
  rcases asked : l.acquire granted with ⟨e | log, k⟩
  · cases acquire_refused asked with
    | ended state =>
      rw [starting, if_neg (by simp [state])]
      exact .refl l
    | taken state there =>
      have taken := (acquire_nameTaken (congrArg Prod.fst asked)).2
      rw [starting, if_neg (by simp [taken])]
      exact .refl l
    | unstarted state registered =>
      obtain ⟨free, names⟩ := started state registered
      rw [names]
      exact ⟨ModuleTable.names_register registered, ModuleTable.nodup_register registered,
        fun other => absurd state other, fun _ other => absurd state other, fun _ _ => state,
        fun halted => absurd (state.symm.trans halted) nofun⟩
  · obtain ⟨state, rfl⟩ | ⟨modules, state, registered, _, rfl⟩ := acquire_taken asked
    · rw [starting, if_neg (by simp [state])]
      exact .of_same rfl rfl
    · obtain ⟨free, names⟩ := started state registered
      rw [names]
      exact ⟨ModuleTable.names_register registered, ModuleTable.nodup_register registered,
        fun other => absurd state other, fun _ _ => ⟨_, ModuleTable.names_register registered⟩,
        fun _ taken => absurd taken free, fun halted => absurd (state.symm.trans halted) nofun⟩

theorem onward_release {l : Lifecycle} (coherent : l.Coherent) : Onward l l.release.1 [] := by
  obtain idle | last | inner : l.active = 0 ∨ l.active = 1 ∨ 1 < l.active := by omega
  · rw [release_idle idle]
    exact .refl l
  · have ready : l.state = .ready := coherent.ready.mpr (by omega)
    have left : l.release.1 = l.finalize.1 := by simp [release, last]
    have ended : l.finalize.1.state ≠ .uninitialized := by
      intro fresh
      cases fresh
    rw [left]
    exact ⟨(List.append_nil _).symm, fun distinct => distinct, fun _ => ⟨ended, rfl⟩,
      fun fresh => by simp [ready] at fresh, fun fresh => by simp [ready] at fresh, fun _ => rfl⟩
  · have modules : l.release.1.modules = l.modules := by
      unfold release
      split <;> rfl
    exact .of_same (release_inner inner).1 modules

theorem onward_created {l k : Lifecycle} {s t : Supply} {granted : Bool} {n : Namespace}
    {log : List Log.Entry} (ok : l.createNamespace s granted = (.ok (n, k, log), t)) :
    Onward l k [] := by
  obtain ⟨_, rfl, _, _⟩ := createNamespace_ok ok
  exact .of_same rfl rfl

end Lifecycle

end Patchbay
