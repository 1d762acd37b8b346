import Patchbay.Proofs.Script.Iterate
import Patchbay.Proofs.Script.Realm

/-!
What sets and typed arrays hold, in order, and that their iterators tell just that.
-/
namespace Patchbay.Script

variable {t : Value → Prop} {m k : Machine} {d : Nat} {r : Ref}

/-- The items of a set in the order in which they came, or the elements of a typed array. -/
def Machine.contents? (m : Machine) (r : Ref) : Option (List Value) :=
  match ((m.heap[r]?).getD default).payload with
  | .set items => some (items.toList.filterMap id)
  | .typed e buffer offset length =>
    match ((m.heap[buffer]?).getD default).payload with
    | .buffer bytes => some ((List.range length).map fun n => elementAt bytes e (offset + n * e.size))
    | _ => none
  | _ => none

/-- The function by which values of a kind tell what they hold, and what its iterators inherit from. -/
def Payload.iteration? : Payload → Option (Native × Proto)
  | .set _ => some (.set .values, .setIterator)
  | .typed .. => some (.typed .values, .listIterator)
  | _ => none

/-- A set or a typed array that tells what it holds as the language has it. -/
def Machine.Regular (m : Machine) (r : Ref) : Prop :=
  ∃ i ∈ ((m.heap[r]?).getD default).payload.iteration?, m.Iterates r i.1 i.2

instance (m : Machine) (r : Ref) : Decidable (m.Regular r) :=
  inferInstanceAs (Decidable (∃ i ∈ ((m.heap[r]?).getD default).payload.iteration?, m.Iterates r i.1 i.2))

theorem not_list {vs : List Value} (contents : m.contents? r = some vs) : m.isList (.object r) = false := by
  have behind : m.behind chainLimit r = r := by
    rw [chainLimit, Machine.behind]
    unfold Machine.contents? at contents
    split at contents
    · rename_i set
      rw [set]
    · rename_i typed
      rw [typed]
    · cases contents
  rw [Machine.isList, behind]
  unfold Machine.contents? at contents
  split at contents
  · rename_i set
    rw [set]
  · rename_i typed
    rw [typed]
  · cases contents

theorem ends_newWalker {k : Machine} (grown : m.Grown k) (p : Proto) (w : Walk) :
    Ends t k (newObject p (.walk w .values 0) >>= fun r => pure (Value.object r)) fun a l =>
      ∃ it, a = .object it ∧ m.Walks l it p w 0 := by
  refine (ends_newObject k _ _).bind ?_
  rintro it l ⟨later, fresh, there⟩
  exact .pure ⟨it, rfl, grown.trans later, grown.absent fresh, there⟩

theorem nextPresent_bounds {α : Type} {items : Array (Option α)} {n i : Nat} {a : α}
    (found : nextPresent items n = some (i, a)) : n ≤ i ∧ i < items.size := by
  fun_induction nextPresent items n with
  | case1 n inside b present =>
    cases found
    exact ⟨Nat.le_refl _, inside⟩
  | case2 n inside absent ih =>
    obtain ⟨below, above⟩ := ih found
    exact ⟨Nat.le_of_succ_le below, above⟩
  | case3 n outside => cases found

theorem filterMap_drop {α : Type} (items : Array (Option α)) (n : Nat) :
    (items.toList.drop n).filterMap id =
      match nextPresent items n with
      | some (i, a) => a :: (items.toList.drop (i + 1)).filterMap id
      | none => [] := by
  fun_induction nextPresent items n with
  | case1 n inside a present =>
    rw [List.drop_eq_getElem_cons (by simpa using inside)]
    simp [present]
  | case2 n inside absent ih =>
    rw [List.drop_eq_getElem_cons (by simpa using inside)]
    simpa [absent] using ih
  | case3 n outside =>
    rw [List.drop_eq_nil_of_le (by simpa using Nat.le_of_not_lt outside)]
    rfl

section

variable {o : Obj} {items : Array (Option Value)} (there : m.heap[r]? = some o)
  (set : o.payload = .set items)
include there set

theorem ends_set_values (s : Ref) {k : Machine} (grown : m.Grown k) :
    Ends t k ((Native.set .values).run ⟨engine d, s, .object r, [], none⟩) fun a l =>
      ∃ it, a = .object it ∧ m.Walks l it .setIterator (.set r) 0 := by
  have holds : Gives k (thisSet ⟨engine d, s, .object r, [], none⟩) (r, items) := by
    refine (gives_payload (grown.heap there)).bind ?_
    rw [set]
    exact .pure k _
  refine holds.then_ends ?_
  intro l later
  exact ends_newWalker (grown.trans later) _ _

theorem gives_set_item (e : Engine) (n : Nat) :
    Gives m (nextItem e (.set r) .values n) ((nextPresent items n).map fun found => (found.2, found.1 + 1)) := by
  refine (gives_payload there).bind ?_
  rw [set]
  dsimp only
  cases nextPresent items n with
  | none => exact .pure m _
  | some found => exact .pure m _

theorem set_yields (e : Engine) (n : Nat) : Yields m e (.set r) n ((items.toList.drop n).filterMap id) := by
  induction left : items.size - n using Nat.strongRecOn generalizing n with
  | ind left ih =>
    have item := gives_set_item there set e n
    rw [filterMap_drop]
    cases next : nextPresent items n with
    | none =>
      rw [next] at item
      exact .nil item
    | some found =>
      rw [next] at item
      obtain ⟨i, v⟩ := found
      have bounds := nextPresent_bounds next
      exact .cons item (ih (items.size - (i + 1)) (by omega) (i + 1) rfl)

end

section

open Binary

variable {o b : Obj} {element : Element} {buffer : Ref} {offset length : Nat} {bytes : Array UInt8}
  (there : m.heap[r]? = some o) (typed : o.payload = .typed element buffer offset length)
  (behind : m.heap[buffer]? = some b) (held : b.payload = .buffer bytes)
include there typed

theorem ends_typed_values (s : Ref) {k : Machine} (grown : m.Grown k) :
    Ends t k ((Native.typed .values).run ⟨engine d, s, .object r, [], none⟩) fun a l =>
      ∃ it, a = .object it ∧ m.Walks l it .listIterator (.list (.object r)) 0 := by
  have holds : Gives k (typedRow (.object r)) ⟨element, buffer, offset, length⟩ := by
    refine (gives_payload (grown.heap there)).bind ?_
    rw [typed]
    exact .pure k _
  refine holds.then_ends ?_
  intro l later
  exact ends_newWalker (grown.trans later) _ _

theorem gives_walkLength (e : Engine) : Gives m (walkLength e r) length := by
  refine (gives_payload there).bind ?_
  rw [typed]
  exact .pure m _

theorem gives_typed_end (e : Engine) {n : Nat} (outside : length ≤ n) :
    Gives m (nextItem e (.list (.object r)) .values n) none := by
  refine (gives_walkLength there typed e).bind ?_
  rw [if_neg (Nat.not_lt.mpr outside)]
  exact .pure m _

include behind held

theorem gives_typed_item (e : Engine) {n : Nat} (inside : n < length) :
    Gives m (nextItem e (.list (.object r)) .values n)
      (some (elementAt bytes element (offset + n * element.size), n + 1)) := by
  refine (gives_walkLength there typed e).bind ?_
  rw [if_pos inside]
  refine Gives.bind (gives_ownProperty e ?_) (.pure m _)
  intro k grown
  simp only [Machine.ownProperty?, grown.heap there, Option.getD_some, typed, inside, if_true,
    grown.heap behind, held, Property.plain]

theorem typed_yields (e : Engine) (count n : Nat) (whole : n + count = length) :
    Yields m e (.list (.object r)) n
      ((List.range' n count).map fun n => elementAt bytes element (offset + n * element.size)) := by
  induction count generalizing n with
  | zero => exact .nil (gives_typed_end there typed e (by omega))
  | succ count ih =>
    have item := gives_typed_item there typed behind held e (n := n) (by omega)
    exact .cons item (ih (n + 1) (by omega))

end

/-- A list is made of a set or a typed array from just what it holds. -/
theorem ends_contents {vs : List Value} (contents : m.contents? r = some vs) (regular : m.Regular r)
    (enough : vs.length < loopLimit) (room : m.HasRoom vs.length) {k : Machine} (grown : m.Grown k) :
    Ends t k (sourceItems (engine (d + 1)) (.object r)) fun items l => items = vs ∧ m.Grown l := by
  obtain ⟨i, iteration, iterates⟩ := regular
  unfold Machine.contents? at contents
  cases there : m.heap[r]? with
  | none =>
    rw [there] at contents
    cases contents
  | some o =>
    rw [there] at contents iteration
    simp only [Option.getD_some] at contents iteration
    split at contents
    · rename_i items set
      rw [set] at iteration
      cases iteration
      cases contents
      exact ends_sourceItems iterates nofun (fun s k grown => ends_set_values there set s grown)
        (set_yields there set _ 0) enough room grown
    · rename_i element buffer offset length typed
      rw [typed] at iteration
      cases iteration
      split at contents
      · rename_i bytes held
        cases contents
        cases behind : m.heap[buffer]? with
        | none =>
          rw [behind] at held
          cases held
        | some b =>
          rw [behind, Option.getD_some] at held
          have yields := typed_yields there typed behind held (engine d) length 0 (Nat.zero_add length)
          rw [← List.range_eq_range'] at yields
          exact ends_sourceItems iterates nofun (fun s k grown => ends_typed_values there typed s grown)
            yields enough room grown
      · cases contents
    · cases contents

/-- A machine as it begins, with one more object: a set of which an item was deleted. -/
def setMachine : Machine :=
  let items := #[some (.number .one), none, some .undefined, some (.ofString "a")]
  { Machine.initial with
    heap := Machine.initial.heap.push { proto := some Proto.set.ref, payload := .set items } }

theorem setMachine_ready :
    setMachine.Standard ∧ setMachine.Closed [374, Proto.set.ref, Proto.object.ref] ∧
      setMachine.isSetInstance (.object 374) = some true ∧
      setMachine.contents? 374 = some [.number .one, .undefined, .ofString "a"] ∧
      setMachine.Regular 374 ∧ setMachine.memoryLimit = none := by
  rw [setMachine, Realm.initial_eq]
  decide +kernel

theorem setMachine_holds : setMachine.Holds (.object 374) := by
  obtain ⟨-, closed, -⟩ := setMachine_ready
  rintro _ ⟨⟩
  exact closed.grounded (.head _)

end Patchbay.Script
