import Patchbay.Proofs.Host.Run
import Patchbay.Proofs.Lifecycle.History

/-!
Hosts that share their lifecycle. Between the steps of a host others may take references on the same
lifecycle, give them back, also ones that are not theirs, and make and drop namespaces. The counts then
say nothing of the owners of the one host; that the interpreter runs exactly while references are taken,
and that owners stand under their own identities, holds all the same.
-/
namespace Patchbay

theorem Bench.Change.coherent {l k : Lifecycle} {p q : Nat} {t u : Tally} (coherent : l.Coherent)
    (change : Change l p t k q u) : k.Coherent := by
  cases change with
  | none alike => exact coherent.alike alike
  | taken ok => exact coherent.acquired ok
  | returned => exact coherent.released
  | made ok => exact coherent.created ok
  | dropped => exact coherent.dropped _

namespace Host

/-- What others see of a host: its lifecycle and its supply, beside what they hold themselves. -/
def outside (h : Host) (leases : List Bool) (namespaces : List (Option Namespace)) : Bench :=
  ⟨h.lifecycle, h.supply, leases, namespaces, h.files⟩

def beside (h : Host) (b : Bench) : Host := { h with lifecycle := b.lifecycle, supply := b.supply }

/-- A host that can come about, by its own steps and by those of others on its lifecycle. -/
inductive Reachable : Host → Prop
  | opening (settings : InterpreterSettings) (supply : Supply) (files : Files.Tree)
      (roots : List String) : Reachable (opening settings supply files roots)
  | after {h : Host} (s : Step) (before : Reachable h) : Reachable (h.after s).1
  | elsewhere {h : Host} (s : Bench.Step) (leases : List Bool) (namespaces : List (Option Namespace))
      (before : Reachable h) : Reachable (h.beside ((h.outside leases namespaces).after s))

structure Regular (h : Host) : Prop where
  coherent : h.lifecycle.Coherent
  named : ∀ {i o}, h.owner? i = some o → o.identity = i

theorem settings_dismiss (l : Lifecycle) (o : Owner) : (dismiss l o).1.settings = l.settings :=
  Lifecycle.release_settings _

theorem settings_free (h : Host) (i : Identity) :
    (h.free i).host.lifecycle.settings = h.lifecycle.settings := by
  unfold free
  split
  · rfl
  · rename_i o _
    exact settings_dismiss h.lifecycle o

namespace Regular

variable {h : Host}

theorem absorb (regular : h.Regular) {i : Identity} {o : Owner} {r : Response}
    (found : h.owner? i = some o) (responds : o.Responds r) : (h.absorb i r).host.Regular := by
  refine ⟨regular.coherent, ?_⟩
  intro j p present
  rw [owner?_absorb] at present
  split at present
  · rename_i same
    obtain ⟨_, _, rfl⟩ := Option.map_eq_some_iff.mp present
    rw [responds.identity, regular.named found, same]
  · exact regular.named present

theorem deliver (regular : h.Regular) {i : Identity} {f : Owner → Option Response}
    (responds : ∀ o r, f o = some r → o.Responds r) : (h.deliver i f).1.Regular :=
  deliver_keeps regular fun o r found done => regular.absorb found (responds o r done)

theorem dismiss {l : Lifecycle} (coherent : l.Coherent) (o : Owner) :
    (Host.dismiss l o).1.Coherent := (coherent.dropped o.scripts).released

theorem enroll (regular : h.Regular) (o : Owner) : (h.enroll o).1.Regular := by
  constructor
  · unfold Host.enroll
    cases h.owner? o.identity with
    | none => exact regular.coherent
    | some former => exact dismiss regular.coherent former
  · intro j p present
    change (h.roster.insert o.identity o).get? j = some p at present
    rw [Roster.get?_insert] at present
    split at present
    · rename_i same
      cases present
      exact same.symm
    · exact regular.named present

theorem spawn (regular : h.Regular) (settings : OwnerSettings) (room : Room) :
    (h.spawn settings room).host.Regular := by
  unfold Host.spawn
  dsimp only
  split
  · rename_i failed
    exact ⟨(Owner.make_error regular.coherent failed).1, regular.named⟩
  · rename_i made
    have grown : Regular { h with
        lifecycle := (Owner.make h.lifecycle h.supply settings room).lifecycle
        supply := (Owner.make h.lifecycle h.supply settings room).supply } :=
      ⟨(Owner.make_ok regular.coherent made).1, regular.named⟩
    exact grown.enroll _

theorem free (regular : h.Regular) (i : Identity) : (h.free i).host.Regular := by
  unfold Host.free
  split
  · exact regular
  · rename_i o _
    refine ⟨dismiss regular.coherent o, ?_⟩
    intro j p present
    rw [owner?, Roster.get?_erase] at present
    split at present
    · cases present
    · exact regular.named present

theorem runAll (regular : h.Regular) (work : List (Identity × DeferredTask)) :
    (h.runAll work).host.Regular :=
  runAll_keeps (fun _ _ regular => regular.deliver fun _ _ does => task_responds does) regular work

theorem emptied (regular : h.Regular) : Regular { h with deferred := {} } := ⟨regular.coherent, regular.named⟩

theorem after (regular : h.Regular) (s : Step) : (h.after s).1.Regular := by
  have moved := h.moves s
  generalize (h.after s).1 = k at moved ⊢
  cases moved with
  | spawns settings room => exact regular.spawn settings room
  | frees i => exact regular.free i
  | delivers => exact regular.deliver fun o r done => response_responds done
  | serves work => exact regular.emptied.runAll work
  | registers alike => exact ⟨regular.coherent.alike alike, regular.named⟩
  | files | skips => exact ⟨regular.coherent, regular.named⟩

theorem elsewhere (regular : h.Regular) (s : Bench.Step) (leases : List Bool)
    (namespaces : List (Option Namespace)) :
    (h.beside ((h.outside leases namespaces).after s)).Regular := by
  have change := Bench.change_after (h.outside leases namespaces) {} s
  exact ⟨change.coherent regular.coherent, regular.named⟩

theorem settings_spawn (regular : h.Regular) (settings : OwnerSettings) (room : Room) :
    (h.spawn settings room).host.lifecycle.settings = h.lifecycle.settings := by
  have made := Owner.make_settings regular.coherent h.supply settings room
  unfold Host.spawn
  dsimp only
  split
  · exact made
  · unfold Host.enroll
    dsimp only
    split
    · exact made
    · exact (settings_dismiss _ _).trans made

/-- The limits of the interpreter are set once and for all. -/
theorem settings_after (regular : h.Regular) (s : Step) :
    (h.after s).1.lifecycle.settings = h.lifecycle.settings := by
  have moved := h.moves s
  generalize (h.after s).1 = k at moved ⊢
  cases moved with
  | spawns settings room => exact regular.settings_spawn settings room
  | frees i => exact settings_free h i
  | delivers => exact congrArg Lifecycle.settings (h.deliver_shared ..).1
  | serves => exact congrArg Lifecycle.settings (runAll_lifecycle ..)
  | registers alike => exact alike.settings
  | files | skips => rfl

end Regular

theorem Reachable.regular {h : Host} (reachable : h.Reachable) : h.Regular := by
  induction reachable with
  | opening settings =>
    refine ⟨Lifecycle.coherent_ofSettings settings, ?_⟩
    intro i o found
    cases found
  | after s _ ih => exact ih.after s
  | elsewhere s leases namespaces _ ih => exact ih.elsewhere s leases namespaces

end Host

end Patchbay
