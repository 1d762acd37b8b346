import Patchbay.Namespace
import Patchbay.Proofs.Script.Items
import Patchbay.Proofs.Script.Lift

/-!
What becomes of a collection. Its items are read one after the other, and each that is a scalar leaves the
atom that it is by itself. Lists are read by their indices, where a getter may run; sets and typed arrays
are asked by their iterators, which have to be those of the language.
-/
namespace Patchbay.Script

open Binary

variable {m k : Machine} {v : Value} {r : Ref}

def Value.atom? (v : Value) : Option Atom :=
  match v.scalar with
  | .ok (some x) => x.scalar?
  | _ => none

/-- What an item leaves: what it is by itself, if it is a scalar, and else something that has no atom. -/
inductive Value.Leaves (v : Value) (x : Lifted) : Prop
  | scalar (scalar : v.scalar = .ok (some x)) : Leaves v x
  | other (other : v.scalar = .ok none) (bare : x.scalar? = none) : Leaves v x

theorem Value.Leaves.atom {x : Lifted} (leaves : v.Leaves x) : x.scalar? = v.atom? := by
  cases leaves with
  | scalar scalar => rw [atom?, scalar]
  | other other bare => rw [atom?, other, bare]

theorem filterMap_atom? {vs : List Value} {items : List Lifted} (leaves : List.Forall₂ Value.Leaves vs items) :
    items.filterMap Lifted.scalar? = vs.filterMap Value.atom? := by
  induction leaves with
  | nil => rfl
  | cons first _ ih => rw [List.filterMap_cons, List.filterMap_cons, first.atom, ih]

theorem ends_liftItem (standard : m.Standard) (whole : v.scalar.isOk = true) :
    Ends Never m (liftItem mainEngine v).run fun found k =>
      ∃ x, found = .ok x ∧ m.Grown k ∧ v.Leaves x := by
  cases scalar : v.scalar with
  | error index =>
    rw [scalar] at whole
    cases whole
  | ok found =>
    cases found with
    | some x =>
      have lifted := gives_liftScalar v fun _ => standard
      rw [scalar] at lifted
      have item : Gives m (liftItem mainEngine v).run (.ok x) := gives_then lifted (.pure m _)
      refine item.ends.mono ?_
      rintro _ k ⟨rfl, grown⟩
      exact ⟨x, rfl, grown, .scalar scalar⟩
    | none =>
      rw [liftItem, liftScalar_none _ scalar, pure_bind, run_lifted]
      refine Ends.after (m.isList_run v) ?_
      cases m.isList v with
      | true => exact .pure ⟨.collection [], rfl, .refl m, .other scalar rfl⟩
      | false =>
        rw [if_neg Bool.false_ne_true, run_lifted]
        refine Ends.after (bareKind_run m v) ?_
        exact .pure ⟨.bare (m.bareOf v), rfl, .refl m, .other scalar rfl⟩

/-- The values that an object gives under some indices, one after the other. Reading one may run code, which
leaves the names by which the lift goes as they are. -/
inductive Reads (r : Ref) : List Nat → Machine → List Value → Prop
  | nil (m : Machine) : Reads r [] m []
  | cons {n : Nat} {ns : List Nat} {m k : Machine} {v : Value} {vs : List Value}
      (read : getProperty mainEngine r (.index n) m = .ok v k) (standard : k.Standard)
      (whole : v.scalar.isOk = true)
      (rest : ∀ x l, (liftItem mainEngine v).run k = .ok (.ok x) l → Reads r ns l vs) :
      Reads r (n :: ns) m (v :: vs)

theorem Reads.ends {ns : List Nat} {vs : List Value} (reads : Reads r ns m vs) :
    Ends Never m (ns.mapM fun n => do liftItem mainEngine (← getProperty mainEngine r (.index n)) :
        LiftRun (List Lifted)).run fun found _ =>
      ∃ items, found = .ok items ∧ List.Forall₂ Value.Leaves vs items := by
  induction reads with
  | nil m => exact .pure ⟨[], rfl, .nil⟩
  | @cons n ns m k v vs read standard whole rest ih =>
    obtain ⟨_, l, ran, x, rfl, -, leaves⟩ := (ends_liftItem standard whole).total
    rw [List.mapM_cons, bind_assoc, run_lifted]
    refine Ends.after read ?_
    rw [ExceptT.run_bind]
    refine Ends.after ran ?_
    dsimp only
    rw [ExceptT.run_bind]
    refine (ih x l ran).bind ?_
    rintro _ j ⟨items, rfl, others⟩
    exact .pure ⟨x :: items, rfl, .cons leaves others⟩

theorem reads_list {all : List Value} (there : m.heap[r]? = some (listOf all)) (standard : m.Standard)
    (whole : ∀ v ∈ all, v.scalar.isOk = true) (vs : List Value) {n : Nat} (rest : all.drop n = vs)
    {k : Machine} (grown : m.Grown k) : Reads r (List.range' n vs.length) k vs := by
  induction vs generalizing n k with
  | nil => exact .nil k
  | cons v vs ih =>
    have item : all[n]? = some v := by
      rw [← List.head?_drop, rest]
      rfl
    have own : ∀ l, m.Grown l → l.ownProperty? r (.index n) = some (.plain v) := by
      intro l grown
      rw [Machine.ownProperty?, grown.heap there]
      simp [listOf, item]
    obtain ⟨l, read, later⟩ := gives_ownProperty mainEngine own k grown
    have standard := standard.of_grown (grown.trans later)
    have present : v ∈ all := List.mem_of_getElem? item
    refine .cons read standard (whole v present) ?_
    intro x j ran
    -- To lift a big integer a script runs, so the list has to be found again behind the item.
    obtain ⟨_, _, ran', _, -, last, -⟩ := (ends_liftItem standard (whole v present)).total
    rw [ran] at ran'
    cases ran'
    exact ih (by rw [← List.drop_drop, rest]; rfl) ((grown.trans later).trans last)

theorem lengthOf_list {all : List Value} (there : m.heap[r]? = some (listOf all)) :
    lengthOf mainEngine r m = .ok all.length m := by
  rw [lengthOf, object_bind, there, Option.getD_some, listOf]
  simp only [List.size_toArray, List.length_map]
  rfl

/-- What a collection holds, as a lift comes by it: the values under the indices of a list, or what a set or
a typed array tells as the language has it. -/
inductive Machine.Holding (m : Machine) : Value → List Value → Prop
  | list {r n : Nat} {k : Machine} {vs : List Value} (list : m.isList (.object r) = true)
      (length : lengthOf mainEngine r m = .ok n k) (reads : Reads r (List.range n) k vs) :
      Holding m (.object r) vs
  | iterated {r : Ref} {vs : List Value} {b : Bool} (held : m.Holds (.object r))
      (told : m.isSetInstance (.object r) = some b) (collection : (b || m.isView (.object r)) = true)
      (contents : m.contents? r = some vs) (regular : m.Regular r) (enough : vs.length < loopLimit)
      (room : m.HasRoom vs.length) (whole : ∀ v ∈ vs, v.scalar.isOk = true) :
      Holding m (.object r) vs

/-- A collection that is told by some list, whatever told it, and the values under the indices of the list. -/
inductive Machine.Collects (m : Machine) (v : Value) (vs : List Value) : Prop
  | told {r n : Nat} {k l : Machine} (other : v.scalar = .ok none)
      (list : collectionList? mainEngine v m = .ok (some r) k) (length : lengthOf mainEngine r k = .ok n l)
      (reads : Reads r (List.range n) l vs) : Collects m v vs

theorem Machine.Collects.ends {vs : List Value} (collects : m.Collects v vs) :
    Ends Never m (lift mainEngine v).run fun found _ =>
      ∃ items, found = .ok (.collection items) ∧ List.Forall₂ Value.Leaves vs items := by
  obtain ⟨other, list, length, reads⟩ := collects
  rw [lift_other _ other, run_lifted]
  refine Ends.after list ?_
  dsimp only
  rw [liftList, run_lifted]
  refine Ends.after length ?_
  rw [ExceptT.run_bind]
  refine reads.ends.bind ?_
  rintro _ j ⟨items, rfl, leaves⟩
  exact .pure ⟨items, rfl, leaves⟩

theorem collects_list {all : List Value} (there : m.heap[r]? = some (listOf all)) (standard : m.Standard)
    (whole : ∀ v ∈ all, v.scalar.isOk = true) : m.Collects (.object r) all := by
  refine .told rfl (collectionList_list mainEngine (m.isList_there there rfl)) (lengthOf_list there) ?_
  rw [List.range_eq_range']
  exact reads_list there standard whole all List.drop_zero (.refl m)

theorem Machine.Holding.collects {vs : List Value} (standard : m.Standard) (holding : m.Holding v vs) :
    m.Collects v vs := by
  cases holding with
  | list list length reads => exact .told rfl (collectionList_list mainEngine list) length reads
  | iterated held asked collection contents regular enough room whole =>
    obtain ⟨_, l, told, items, k, s, rfl, ⟨rfl, grown⟩, lists⟩ :=
      (ends_collectionList held standard (not_list contents) asked collection fun k grown =>
        ends_contents contents regular enough room grown).total
    obtain ⟨_, ⟨⟩, later, there⟩ := lists
    refine .told rfl told (lengthOf_list there) ?_
    rw [List.range_eq_range']
    exact reads_list there (standard.of_grown (grown.trans later)) whole items List.drop_zero (.refl l)

theorem ends_holding {vs : List Value} (standard : m.Standard) (holding : m.Holding v vs) :
    Ends Never m (lift mainEngine v).run fun found _ =>
      ∃ x, found = .ok x ∧ x.encode? = some (.list (vs.filterMap Value.atom?)) := by
  refine (holding.collects standard).ends.mono ?_
  rintro _ k ⟨items, rfl, leaves⟩
  exact ⟨.collection items, rfl, by rw [Lifted.encode?, filterMap_atom? leaves]⟩

theorem ends_lift_other (m : Machine) (other : v.scalar = .ok none) (a : Atom) :
    Ends Whatever m (lift mainEngine v).run fun found _ =>
      ∀ x, found = .ok x → x.encode? ≠ some (.scalar a) := by
  rw [lift_other _ other, run_lifted]
  have any (w : Value) : Whatever w := trivial
  refine (Ends.anyhow any m _).bind ?_
  rintro (_ | r) k _
  · dsimp only
    rw [run_lifted]
    refine (Ends.anyhow any k _).bind ?_
    rintro kind l _
    refine .pure ?_
    rintro _ ⟨⟩
    exact nofun
  · refine (ends_liftList any k mainEngine r).mono ?_
    rintro found l collected x rfl
    cases x with
    | collection items => exact nofun
    | _ => cases collected _ rfl

theorem atom?_iff (standard : m.Standard) (v : Value) (a : Atom) :
    v.atom? = some a ↔ ∃ x k, (lift mainEngine v).run m = .ok (.ok x) k ∧ x.encode? = some (.scalar a) := by
  have lifted := gives_liftScalar v fun _ => standard
  unfold Value.atom?
  cases scalar : v.scalar with
  | error index =>
    rw [scalar] at lifted
    have fails : Gives m (lift mainEngine v).run (.error index) := gives_stop lifted
    constructor
    · intro none
      cases none
    · rintro ⟨x, k, ran, -⟩
      cases fails.eq ran
  | ok found =>
    cases found with
    | some y =>
      rw [scalar] at lifted
      have gives : Gives m (lift mainEngine v).run (.ok y) := gives_then lifted (.pure m _)
      obtain ⟨b, atom, encodes⟩ := Value.encode?_scalar scalar
      dsimp only
      constructor
      · intro same
        rw [atom] at same
        cases same
        obtain ⟨k, ran, -⟩ := gives m (.refl m)
        exact ⟨y, k, ran, encodes⟩
      · rintro ⟨x, k, ran, same⟩
        cases gives.eq ran
        rw [encodes] at same
        cases same
        exact atom
    | none =>
      constructor
      · intro none
        cases none
      · rintro ⟨x, k, ran, encodes⟩
        exact absurd encodes ((ends_lift_other m scalar a).ok ran x rfl)

theorem setMachine_holding :
    setMachine.Holding (.object 374) [.number .one, .undefined, .ofString "a"] := by
  obtain ⟨-, -, member, contents, regular, unlimited⟩ := setMachine_ready
  refine .iterated setMachine_holds member rfl contents regular (by decide) ?_ (by decide +kernel)
  intro limit limited
  rw [unlimited] at limited
  cases limited

end Patchbay.Script
