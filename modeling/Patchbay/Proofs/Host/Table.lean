import Patchbay.Proofs.Host.Refusal

/-!
The table of modules over whole histories of a host whose lifecycle others use too. Names come to it as
modules are registered and when the interpreter starts, and nothing comes later. Whether a host can ever
start is decided by who brought the name of the host's module, as long as the engine grants every start;
after a start that the engine refused the name is there and nobody has registered it.
-/
namespace Patchbay

theorem Owner.onward_make {l : Lifecycle} (coherent : l.Coherent) (s : Supply) (settings : OwnerSettings)
    (room : Room) :
    Lifecycle.Onward (l.acquire room.starts).2 (make l s settings room).lifecycle [] := by
  unfold make
  split
  · rename_i refused
    rw [refused]
    exact .refl _
  · rename_i log k taken
    rw [taken]
    split
    · rename_i created
      exact Lifecycle.onward_created created
    · exact Lifecycle.onward_release (coherent.acquired taken)

theorem Bench.onward_acquired (b : Bench) (granted : Bool) :
    (b.acquire granted).bench.lifecycle = (b.lifecycle.acquire granted).2 ∧
      (b.lease granted).bench.lifecycle = (b.lifecycle.acquire granted).2 := by
  rcases asked : b.lifecycle.acquire granted with ⟨e | log, l⟩ <;> simp [acquire, lease, asked]

namespace Host

/-- Something that happens to a host: a step of its own, or one of others on its lifecycle. -/
inductive Deed
  | own (s : Step)
  | others (s : Bench.Step) (leases : List Bool) (namespaces : List (Option Namespace))

def Deed.registers? : Deed → Option BuiltinModule
  | .own (.register m) | .others (.register m) _ _ => some m
  | _ => none

/-- Where a reference is to be taken, whether the engine would start for it. -/
def Deed.asks? : Deed → Option Bool
  | .own (.spawn _ room) => some room.starts
  | .others (.acquire granted) _ _ | .others (.lease granted) _ _ => some granted
  | _ => none

def meet (h : Host) : Deed → Host
  | .own s => (h.after s).1
  | .others s leases namespaces => h.beside ((h.outside leases namespaces).after s)

def meetAll (h : Host) : List Deed → Host
  | [] => h
  | d :: rest => (h.meet d).meetAll rest

def brings (h : Host) (d : Deed) : List String :=
  match d.registers? with
  | none => []
  | some m => if (h.lifecycle.register m).isOk then [m.name] else []

def entries (h : Host) (d : Deed) : List String :=
  h.brings d ++ if d.asks?.isSome then h.lifecycle.starting else []

/-- The names that were registered, in order; what a start brings is left out. -/
def registered (h : Host) : List Deed → List String
  | [] => []
  | d :: rest => h.brings d ++ (h.meet d).registered rest

def entered (h : Host) : List Deed → List String
  | [] => []
  | d :: rest => h.entries d ++ (h.meet d).entered rest

open Lifecycle (Onward)

variable {h : Host}

theorem Regular.meet (regular : h.Regular) (d : Deed) : (h.meet d).Regular := by
  cases d with
  | own s => exact regular.after s
  | others s leases namespaces => exact regular.elsewhere s leases namespaces

theorem onward_dismiss {l : Lifecycle} (coherent : l.Coherent) (o : Owner) :
    Onward l (dismiss l o).1 [] := by
  have dropped : Onward l (l.dropNamespace o.scripts).1 [] := .of_same rfl rfl
  exact dropped.trans_nil (Lifecycle.onward_release (coherent.dropped o.scripts))

theorem onward_enroll (regular : h.Regular) (o : Owner) :
    Onward h.lifecycle (h.enroll o).1.lifecycle [] := by
  unfold enroll
  cases h.owner? o.identity with
  | none => exact .refl _
  | some former => exact onward_dismiss regular.coherent former

theorem onward_spawn (regular : h.Regular) (settings : OwnerSettings) (room : Room) :
    Onward (h.lifecycle.acquire room.starts).2 (h.spawn settings room).host.lifecycle [] := by
  have made := Owner.onward_make regular.coherent h.supply settings room
  unfold spawn
  dsimp only
  split
  · exact made
  · rename_i ok
    have grown : Regular { h with
        lifecycle := (Owner.make h.lifecycle h.supply settings room).lifecycle
        supply := (Owner.make h.lifecycle h.supply settings room).supply } :=
      ⟨(Owner.make_ok regular.coherent ok).1, regular.named⟩
    exact made.trans_nil (onward_enroll grown _)

theorem onward_free (regular : h.Regular) (i : Identity) :
    Onward h.lifecycle (h.free i).host.lifecycle [] := by
  unfold free
  split
  · exact .refl _
  · rename_i o _
    exact onward_dismiss regular.coherent o

/-- Where a reference is to be taken, the table is done with once it is taken or refused. -/
theorem onward_asked (regular : h.Regular) {d : Deed} {granted : Bool} (asks : d.asks? = some granted) :
    Onward (h.lifecycle.acquire granted).2 (h.meet d).lifecycle [] := by
  cases d with
  | own s =>
    cases s <;> simp only [Deed.asks?, reduceCtorEq, Option.some.injEq] at asks
    case spawn settings room =>
      subst asks
      exact onward_spawn regular settings room
  | others s leases namespaces =>
    have acquired := (h.outside leases namespaces).onward_acquired
    cases s <;> simp only [Deed.asks?, reduceCtorEq, Option.some.injEq] at asks
    case acquire given =>
      subst asks
      have same := (acquired given).1
      exact .of_same (congrArg _ same) (congrArg _ same)
    case lease given =>
      subst asks
      have same := (acquired given).2
      exact .of_same (congrArg _ same) (congrArg _ same)

theorem lifecycle_registers (h : Host) {d : Deed} {m : BuiltinModule}
    (registers : d.registers? = some m) :
    (h.meet d).lifecycle = match h.lifecycle.register m with
      | .ok l => l
      | .error _ => h.lifecycle := by
  cases d with
  | own s =>
    cases s <;> cases registers
    simp only [Host.meet, after, Host.register, Report.outcome]
    cases h.lifecycle.register m <;> rfl
  | others s leases namespaces =>
    cases s <;> cases registers
    simp only [Host.meet, Bench.after, Bench.register, outside, beside]
    cases h.lifecycle.register m <;> rfl

theorem onward_registers (h : Host) {d : Deed} {m : BuiltinModule} (registers : d.registers? = some m) :
    Onward h.lifecycle (h.meet d).lifecycle (h.brings d) := by
  rw [lifecycle_registers h registers, brings, registers]
  cases result : h.lifecycle.register m with
  | error e => simpa [result, Except.isOk, Except.toBool] using Onward.refl h.lifecycle
  | ok l => simpa [result, Except.isOk, Except.toBool] using Lifecycle.onward_register result

theorem onward_own (regular : h.Regular) {s : Step} (asks : (Deed.own s).asks? = none)
    (registers : (Deed.own s).registers? = none) : Onward h.lifecycle (h.after s).1.lifecycle [] := by
  have moved := h.moves s
  generalize (h.after s).1 = k at moved ⊢
  cases moved with
  | spawns => cases asks
  | frees i => exact onward_free regular i
  | delivers => exact .of_same (congrArg _ (h.deliver_shared ..).1) (congrArg _ (h.deliver_shared ..).1)
  | serves => exact .of_same (congrArg _ (runAll_lifecycle ..)) (congrArg _ (runAll_lifecycle ..))
  | registers => cases registers
  | files | skips => exact .refl _

theorem onward_others {b : Bench} (coherent : b.lifecycle.Coherent) {s : Bench.Step}
    {leases : List Bool} {namespaces : List (Option Namespace)}
    (asks : (Deed.others s leases namespaces).asks? = none)
    (registers : (Deed.others s leases namespaces).registers? = none) :
    Onward b.lifecycle (b.after s).lifecycle [] := by
  cases s with
  | register => cases registers
  | acquire | lease => cases asks
  | release => exact Lifecycle.onward_release coherent
  | dropLease index =>
    simp only [Bench.after, Bench.dropLease]
    cases b.leases[index]? == some true with
    | true => exact Lifecycle.onward_release coherent
    | false => exact .refl _
  | createNamespace granted =>
    rcases made : b.lifecycle.createNamespace b.supply granted with ⟨e | ⟨n, l, log⟩, t⟩
    · simp only [Bench.after, Bench.createNamespace, made]
      exact .refl _
    · simp only [Bench.after, Bench.createNamespace, made]
      exact Lifecycle.onward_created made
  | dropNamespace index =>
    simp only [Bench.after, Bench.dropNamespace]
    cases b.namespaces[index]?.join <;> exact .of_same rfl rfl

theorem onward_meet (regular : h.Regular) (d : Deed) :
    Onward h.lifecycle (h.meet d).lifecycle (h.entries d) := by
  cases asks : d.asks? with
  | some granted =>
    have none : h.brings d = [] := by
      cases d with
      | own s => cases s <;> first | rfl | cases asks
      | others s => cases s <;> first | rfl | cases asks
    rw [entries, none, asks]
    exact (Lifecycle.onward_acquire h.lifecycle granted).trans_nil (onward_asked regular asks)
  | none =>
    rw [entries, asks, Option.isSome_none, if_neg Bool.false_ne_true, List.append_nil]
    cases registers : d.registers? with
    | some m => exact onward_registers h registers
    | none =>
      rw [brings, registers]
      cases d with
      | own s => exact onward_own regular asks registers
      | others s leases namespaces =>
        have coherent : (h.outside leases namespaces).lifecycle.Coherent := regular.coherent
        exact onward_others coherent asks registers

theorem Regular.meetAll (regular : h.Regular) (deeds : List Deed) : (h.meetAll deeds).Regular := by
  induction deeds generalizing h with
  | nil => exact regular
  | cons d rest ih => exact ih (regular.meet d)

theorem onward_meetAll (regular : h.Regular) (deeds : List Deed) :
    Onward h.lifecycle (h.meetAll deeds).lifecycle (h.entered deeds) := by
  induction deeds generalizing h with
  | nil => exact .refl _
  | cons d rest ih => exact (onward_meet regular d).trans (ih (regular.meet d))

theorem started_of_taken (regular : h.Regular) {d : Deed} {granted : Bool} (asks : d.asks? = some granted)
    (taken : (h.lifecycle.acquire granted).1.isOk) : (h.meet d).lifecycle.state ≠ .uninitialized := by
  rcases asked : h.lifecycle.acquire granted with ⟨e | log, k⟩
  · rw [asked] at taken
    cases taken
  · have onward := onward_asked regular asks
    rw [asked] at onward
    have ready := (Lifecycle.acquire_ok regular.coherent asked).2.1
    exact (onward.closed (by simp [ready])).1

/-- As long as every start is granted and nobody registers its name, the host's module comes to the table
with the start. -/
theorem unclaimed_meetAll (regular : h.Regular) {deeds : List Deed}
    (free : h.lifecycle.state = .uninitialized → hostModuleName ∉ h.lifecycle.modules.names)
    (unclaimed : hostModuleName ∉ h.registered deeds) (granted : ∀ d ∈ deeds, d.asks? ≠ some false)
    (fresh : (h.meetAll deeds).lifecycle.state = .uninitialized) :
    hostModuleName ∉ (h.meetAll deeds).lifecycle.modules.names := by
  induction deeds generalizing h with
  | nil => exact free fresh
  | cons d rest ih =>
    rw [registered, List.mem_append, not_or] at unclaimed
    refine ih (regular.meet d) ?_ unclaimed.2 (fun e member => granted e (.tail _ member)) fresh
    intro between
    have onward := onward_meet regular d
    have before : h.lifecycle.state = .uninitialized := by
      by_contra started
      exact (onward.closed started).1 between
    rw [onward.grows, List.mem_append, entries, List.mem_append]
    rintro (earlier | brought | asked)
    · exact free before earlier
    · exact unclaimed.1 brought
    · cases asks : d.asks? with
      | none => simp [asks] at asked
      | some answer =>
        have yes : answer = true := by
          cases answer with
          | true => rfl
          | false => exact absurd asks (granted d (.head _))
        subst yes
        have taken : (h.lifecycle.acquire true).1.isOk := by
          have registered := ModuleTable.register?_free (m := hostModule) (free before)
          simp [Lifecycle.acquire, before, Lifecycle.start, registered, Except.isOk, Except.toBool]
        exact started_of_taken regular asks taken between

inductive Fails (h : Host) (e : LifecycleError) : Prop
  | acquire (granted : Bool) (failed : (h.lifecycle.acquire granted).1 = .error e)
  | lease (granted : Bool) (leases : List Bool) (namespaces : List (Option Namespace))
      (failed : ((h.outside leases namespaces).lease granted).result = .error e)
  | spawn (settings : OwnerSettings) (room : Room) (failed : (h.spawn settings room).result = .error e)

structure Barred (h : Host) (e : LifecycleError) : Prop where
  acquire : ∀ granted, (h.lifecycle.acquire granted).1 = .error e
  lease : ∀ granted leases namespaces, ((h.outside leases namespaces).lease granted).result = .error e
  spawn : ∀ settings room, (h.spawn settings room).result = .error e

theorem barred_of_name (fresh : h.lifecycle.state = .uninitialized)
    (there : hostModuleName ∈ h.lifecycle.modules.names) : h.Barred (.nameTaken hostModuleName) := by
  have refused := Lifecycle.acquire_blocked fresh there
  refine ⟨?_, ?_, ?_⟩
  · intro granted
    rw [refused]
  · intro granted leases namespaces
    simp only [Bench.lease, outside, refused]
  · intro settings room
    simp [Host.spawn, Owner.make, refused]

theorem Fails.name_there {name : String} (regular : h.Regular) (fails : h.Fails (.nameTaken name)) :
    h.lifecycle.state = .uninitialized ∧ hostModuleName ∈ h.lifecycle.modules.names := by
  cases fails with
  | acquire granted failed => exact Lifecycle.acquire_nameTaken failed
  | lease granted leases namespaces failed =>
    have refused : (h.lifecycle.acquire granted).1 = .error (.nameTaken name) := by
      rcases asked : h.lifecycle.acquire granted with ⟨e | log, l⟩
      · simpa [Bench.lease, outside, asked] using failed
      · simp [Bench.lease, outside, asked] at failed
    exact Lifecycle.acquire_nameTaken refused
  | spawn settings room failed =>
    have refusal := Owner.make_refusal regular.coherent (spawn_refused failed).1
    generalize error : LifecycleError.nameTaken name = e at refusal
    generalize (Owner.make h.lifecycle h.supply settings room).lifecycle = l at refusal
    generalize (Owner.make h.lifecycle h.supply settings room).supply = t at refusal
    cases refusal with
    | taken state there =>
      have refused : (h.lifecycle.acquire room.starts).1 = .error (.nameTaken hostModuleName) := by
        simp [Lifecycle.acquire, state, Lifecycle.start, there]
      exact Lifecycle.acquire_nameTaken refused
    | ended | unstarted | crowded | stillborn => cases error

/-- In every history the table has the names that were registered and that of the host since the start, in
that order and each once. The first reference that is taken closes it for good with the module of the host
at its end. Where the name of that module was registered before, no reference is ever taken, and the table
stays open to other names. Where it was not and every start was granted, no reference is refused for a
name. -/
theorem module_table_closes (settings : InterpreterSettings) (supply : Supply) (files : Files.Tree)
    (roots : List String) (deeds : List Deed) :
    let start := opening settings supply files roots
    let h := start.meetAll deeds
    h.lifecycle.modules.names = start.entered deeds ∧ h.lifecycle.modules.names.Nodup ∧
      (∀ d granted, d.asks? = some granted → (h.lifecycle.acquire granted).1.isOk →
        ∃ earlier, (h.meet d).lifecycle.modules.names = earlier ++ [hostModuleName] ∧
          hostModuleName ∉ earlier ∧
          ∀ later, let k := (h.meet d).meetAll later
            k.lifecycle.modules = (h.meet d).lifecycle.modules ∧
              ∀ m, k.lifecycle.register m = .error (.registrationClosed m.name)) ∧
      (∀ d m, d.registers? = some m → m.name = hostModuleName → (h.lifecycle.register m).isOk →
        ∀ later, let k := (h.meet d).meetAll later
          k.Barred (.nameTaken hostModuleName) ∧ k.lifecycle.state = .uninitialized ∧
            k.lifecycle.active = 0 ∧
            ∀ other, other.name ∉ k.lifecycle.modules.names → (k.lifecycle.register other).isOk) ∧
      (hostModuleName ∉ start.registered deeds → (∀ d ∈ deeds, d.asks? ≠ some false) →
        ∀ name, ¬ h.Fails (.nameTaken name)) := by
  intro start h
  have fresh : start.Regular := (Reachable.opening settings supply files roots).regular
  have regular : h.Regular := fresh.meetAll deeds
  have onward : Onward start.lifecycle h.lifecycle (start.entered deeds) := onward_meetAll fresh deeds
  have distinct : h.lifecycle.modules.names.Nodup := onward.distinct List.nodup_nil
  refine ⟨onward.grows, distinct, ?_, ?_, ?_⟩
  · intro d granted asks taken
    have started := started_of_taken regular asks taken
    have first := onward.trans (onward_meet regular d)
    obtain ⟨earlier, names⟩ := first.opened rfl started
    have once := first.distinct List.nodup_nil
    rw [names] at once
    refine ⟨earlier, names, List.disjoint_singleton.mp once.disjoint, ?_⟩
    intro later k
    obtain ⟨still, same⟩ := (onward_meetAll (regular.meet d) later).closed started
    exact ⟨same, Lifecycle.register_closed still⟩
  · intro d m registers name accepted later k
    have step := onward_registers h registers
    obtain ⟨l, ok⟩ : ∃ l, h.lifecycle.register m = .ok l := by
      cases result : h.lifecycle.register m with
      | error e =>
        rw [result] at accepted
        cases accepted
      | ok l => exact ⟨l, rfl⟩
    have there : hostModuleName ∈ (h.meet d).lifecycle.modules.names := by
      rw [step.grows, brings, registers]
      simp [accepted, name]
    have unstarted : (h.meet d).lifecycle.state = .uninitialized := by
      obtain ⟨_, state, _, rfl⟩ := Lifecycle.register_accepted ok
      rw [lifecycle_registers h registers, ok]
      exact state
    have onward := onward_meetAll (regular.meet d) later
    have state : k.lifecycle.state = .uninitialized := onward.blocked unstarted there
    have still : hostModuleName ∈ k.lifecycle.modules.names := by
      rw [onward.grows]
      exact List.mem_append_left _ there
    have idle := (((regular.meet d).meetAll later).coherent.idle (by simp [k, state])).1
    refine ⟨barred_of_name state still, state, idle, ?_⟩
    intro other free
    rw [Lifecycle.register_open state free]
    rfl
  · intro unclaimed granted name fails
    obtain ⟨state, there⟩ := fails.name_there regular
    exact unclaimed_meetAll fresh (fun _ => List.not_mem_nil) unclaimed granted state there

example :
    ((opening {} {} {} []).meetAll [.own (.register ⟨"osc", .answer⟩), .own (.spawn {} {}),
      .own (.register ⟨"midi", .answer⟩)]).lifecycle.modules.names = ["osc", "ember"] := rfl

theorem barred_of_end (halted : h.lifecycle.state = .finalized) : h.Barred .finalized := by
  have refused := Lifecycle.acquire_finalized halted
  refine ⟨?_, ?_, spawn_finalized halted⟩
  · intro granted
    rw [refused]
  · intro granted leases namespaces
    simp only [Bench.lease, outside, refused]

/-- Once a reference was refused, every later one is. -/
theorem barred_of_refused {l k : Lifecycle} {granted : Bool} {e : LifecycleError}
    (refused : Lifecycle.Refused l granted e k) (regular : h.Regular) (left : h.lifecycle = k)
    (later : List Deed) :
    (h.meetAll later).Barred (if e = .finalized then .finalized else .nameTaken hostModuleName) := by
  have onward := onward_meetAll regular later
  have claimed (fresh : k.state = .uninitialized) (there : hostModuleName ∈ k.modules.names) :
      (h.meetAll later).Barred (.nameTaken hostModuleName) := by
    subst left
    apply barred_of_name (onward.blocked fresh there)
    rw [onward.grows]
    exact List.mem_append_left _ there
  cases refused with
  | ended halted => exact barred_of_end (onward.ended (left ▸ halted))
  | taken state there =>
    apply claimed state
    by_contra free
    rw [ModuleTable.register?_free (m := hostModule) free] at there
    cases there
  | unstarted state registered =>
    apply claimed state
    rw [ModuleTable.names_register registered]
    exact List.mem_append_right _ (.head _)

/-- An operation on a lifecycle that fails leaves it as it was, and all that is held on it. The one thing
that can be left is the module of the host in the table, when the engine refused to start. A reference
that was refused once is refused ever after: the interpreter had ended, or the name is in the table. -/
theorem failed_operation_keeps (settings : InterpreterSettings) (supply : Supply) (files : Files.Tree)
    (roots : List String) (deeds : List Deed) (leases : List Bool)
    (namespaces : List (Option Namespace)) :
    let h := (opening settings supply files roots).meetAll deeds
    let b := h.outside leases namespaces
    (∀ m e, (b.register m).result = .error e → (b.register m).bench = b) ∧
      (∀ granted e, (b.createNamespace granted).result = .error e →
        (b.createNamespace granted).bench =
          { b with supply := (b.createNamespace granted).bench.supply }) ∧
      ∀ granted e, (b.lifecycle.acquire granted).1 = .error e →
        let k : Bench := { b with lifecycle := (b.lifecycle.acquire granted).2 }
        (b.acquire granted).result = .error e ∧ (b.acquire granted).bench = k ∧
          (b.lease granted).result = .error e ∧ (b.lease granted).bench = k ∧
          k.lifecycle = { b.lifecycle with modules := k.lifecycle.modules } ∧
          (k.lifecycle.modules = b.lifecycle.modules ∨
            e = .noRoom ∧ granted = false ∧ b.lifecycle.state = .uninitialized ∧
              k.lifecycle.modules.names = b.lifecycle.modules.names ++ [hostModuleName]) ∧
          ∀ later, ((h.beside k).meetAll later).Barred
            (if e = .finalized then .finalized else .nameTaken hostModuleName) := by
  intro h b
  have regular : h.Regular := (Reachable.opening settings supply files roots).regular.meetAll deeds
  refine ⟨?_, ?_, ?_⟩
  · intro m e failed
    unfold Bench.register at failed ⊢
    split at failed
    · cases failed
    · rfl
  · intro granted e failed
    unfold Bench.createNamespace at failed ⊢
    split at failed
    · cases failed
    · rfl
  · intro granted e failed k
    have asked : b.lifecycle.acquire granted = (.error e, k.lifecycle) := by rw [← failed]
    have refused := Lifecycle.acquire_refused asked
    have after : (h.beside k).Regular :=
      ⟨regular.coherent.alike (Lifecycle.acquire_error asked), regular.named⟩
    refine ⟨?_, ?_, ?_, ?_, ?_, ?_, barred_of_refused refused after rfl⟩
    · simp only [Bench.acquire, asked]
    · simp only [Bench.acquire, asked]
      rfl
    · simp only [Bench.lease, asked]
    · simp only [Bench.lease, asked]
      rfl
    · generalize k.lifecycle = l at refused
      cases refused <;> rfl
    · generalize k.lifecycle = l at refused
      cases refused with
      | ended | taken => exact .inl rfl
      | unstarted state registered starts =>
        exact .inr ⟨rfl, starts, state, ModuleTable.names_register registered⟩

/-- A start that the engine refuses leaves the name of the host in the table, and for that name the next
one fails. -/
theorem refused_start_claims_name :
    let l := Lifecycle.ofSettings {}
    let k := (l.acquire false).2
    (l.acquire false).1 = .error .noRoom ∧ l.modules.names = [] ∧ k.modules.names = ["ember"] ∧
      (l.acquire true).1.isOk ∧ (k.acquire true).1 = .error (.nameTaken "ember") :=
  ⟨rfl, rfl, rfl, rfl, rfl⟩

end Host

end Patchbay
