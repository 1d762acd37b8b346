import Patchbay.Script.Property.Read
import Mathlib.Tactic.Common

/-!
Runs of the engine that leave everything that stands in the machine as it is. Objects and scopes may come
behind those that are there, so whatever was found in the machine is found again after such a run. The
calls under way, the posts and the value of the script so far may change freely, and nothing is said of
them.
-/
namespace Patchbay.Script

/-- A machine that has gone on from another one and kept all that stood in it. -/
structure Machine.Grown (m k : Machine) : Prop where
  heap : ∀ {r : Ref} {o : Obj}, m.heap[r]? = some o → k.heap[r]? = some o
  scopes : ∀ {i : Nat} {s : Scope}, m.scopes[i]? = some s → k.scopes[i]? = some s
  limit : k.memoryLimit = m.memoryLimit

namespace Machine.Grown

variable {m k : Machine}

theorem refl (m : Machine) : m.Grown m := ⟨fun there => there, fun there => there, rfl⟩

theorem trans {l : Machine} (first : m.Grown k) (second : k.Grown l) : m.Grown l :=
  ⟨fun there => second.heap (first.heap there), fun there => second.scopes (first.scopes there),
    second.limit.trans first.limit⟩

theorem frames (grown : m.Grown k) (frames : List Frame) : m.Grown { k with frames := frames } :=
  ⟨grown.heap, grown.scopes, grown.limit⟩

theorem completion (grown : m.Grown k) (v : Value) : m.Grown { k with completion := v } :=
  ⟨grown.heap, grown.scopes, grown.limit⟩

theorem modify (grown : m.Grown k) {r : Ref} (fresh : m.heap[r]? = none) (f : Obj → Obj) :
    m.Grown { k with heap := k.heap.modify r f } := by
  refine ⟨?_, grown.scopes, grown.limit⟩
  intro s o there
  have apart : r ≠ s := by
    rintro rfl
    rw [fresh] at there
    cases there
  rw [Array.getElem?_modify, if_neg apart]
  exact grown.heap there

theorem rebind (grown : m.Grown k) {i : Nat} (fresh : m.scopes[i]? = none) (f : Scope → Scope) :
    m.Grown { k with scopes := k.scopes.modify i f } := by
  refine ⟨grown.heap, ?_, grown.limit⟩
  intro j s there
  have apart : i ≠ j := by
    rintro rfl
    rw [fresh] at there
    cases there
  rw [Array.getElem?_modify, if_neg apart]
  exact grown.scopes there

theorem push (grown : m.Grown k) (o : Obj) : m.Grown { k with heap := k.heap.push o } := by
  refine ⟨?_, grown.scopes, grown.limit⟩
  intro r p there
  have found := grown.heap there
  have inside : r < k.heap.size := (Array.getElem?_eq_some_iff.mp found).1
  rw [Array.getElem?_push_lt inside, ← found, Array.getElem?_eq_getElem inside]

theorem pushScope (grown : m.Grown k) (s : Scope) : m.Grown { k with scopes := k.scopes.push s } := by
  refine ⟨grown.heap, ?_, grown.limit⟩
  intro i t there
  have found := grown.scopes there
  have inside : i < k.scopes.size := (Array.getElem?_eq_some_iff.mp found).1
  rw [Array.getElem?_push_lt inside, ← found, Array.getElem?_eq_getElem inside]

theorem absentScope (grown : m.Grown k) {i : Nat} (absent : k.scopes[i]? = none) : m.scopes[i]? = none := by
  cases old : m.scopes[i]? with
  | none => rfl
  | some s =>
    rw [grown.scopes old] at absent
    cases absent

theorem absent (grown : m.Grown k) {r : Ref} (absent : k.heap[r]? = none) : m.heap[r]? = none := by
  cases old : m.heap[r]? with
  | none => rfl
  | some o =>
    rw [grown.heap old] at absent
    cases absent

end Machine.Grown

variable {α β : Type} {t : Value → Prop} {m : Machine}

theorem run_bind {x : Run α} {f : α → Run β} {a : α} {k : Machine} (ran : x m = .ok a k) :
    (x >>= f) m = f a k := by
  change EStateM.bind x f m = _
  simp only [EStateM.bind, ran]

theorem run_bind_error {x : Run α} {f : α → Run β} {v : Value} {k : Machine} (threw : x m = .error v k) :
    (x >>= f) m = .error v k := by
  change EStateM.bind x f m = _
  simp only [EStateM.bind, threw]

/-- How a run from the machine ends; `t` says what it may throw. -/
def Ends (t : Value → Prop) (m : Machine) (x : Run α) (P : α → Machine → Prop) : Prop :=
  match x m with
  | .ok a k => P a k
  | .error v _ => t v

def Never : Value → Prop := fun _ => False

def Whatever : Value → Prop := fun _ => True

/-- From the machine, and from all that grow from it, a run ends with this value and lets the machine
only grow. -/
def Gives (m : Machine) (x : Run α) (a : α) : Prop :=
  ∀ k, m.Grown k → ∃ l, x k = .ok a l ∧ k.Grown l

namespace Ends

variable {x : Run α} {P : α → Machine → Prop}

theorem of_ok {a : α} {k : Machine} (ran : x m = .ok a k) (holds : P a k) : Ends t m x P := by
  rw [Ends, ran]
  exact holds

theorem pure {a : α} (holds : P a m) : Ends t m (Pure.pure a) P := of_ok rfl holds

theorem ok {a : α} {k : Machine} (ends : Ends t m x P) (ran : x m = .ok a k) : P a k := by
  rwa [Ends, ran] at ends

theorem total (ends : Ends Never m x P) : ∃ a k, x m = .ok a k ∧ P a k := by
  unfold Ends at ends
  split at ends
  · exact ⟨_, _, ‹_›, ends⟩
  · cases ends

theorem bind {f : α → Run β} {Q : β → Machine → Prop} (first : Ends t m x P)
    (second : ∀ a k, P a k → Ends t k (f a) Q) : Ends t m (x >>= f) Q := by
  unfold Ends at first
  cases ran : x m with
  | ok a k =>
    rw [ran] at first
    rw [Ends, run_bind ran]
    exact second a k first
  | error v k =>
    rw [ran] at first
    rw [Ends, run_bind_error ran]
    exact first

theorem after {f : α → Run β} {a : α} {k : Machine} {Q : β → Machine → Prop} (ran : x m = .ok a k)
    (rest : Ends t k (f a) Q) : Ends t m (x >>= f) Q := by
  rw [Ends, run_bind ran]
  exact rest

theorem get {f : Machine → Run α} (rest : Ends t m (f m) P) : Ends t m (MonadState.get >>= f) P := rest

theorem modify {g : Machine → Machine} {f : Unit → Run α} (rest : Ends t (g m) (f ()) P) :
    Ends t m (modify g >>= f) P := rest

theorem mono {Q : α → Machine → Prop} (ends : Ends t m x P) (weaker : ∀ a k, P a k → Q a k) :
    Ends t m x Q := by
  unfold Ends at ends ⊢
  split <;> simp_all

theorem widen {t' : Value → Prop} (ends : Ends t m x P) (wider : ∀ v, t v → t' v) : Ends t' m x P := by
  unfold Ends at ends ⊢
  split
  · simp_all
  · exact wider _ (by simp_all)

theorem anyhow (any : ∀ v, t v) (m : Machine) (x : Run α) : Ends t m x fun _ _ => True := by
  unfold Ends
  split
  · trivial
  · exact any _

theorem choose {ι : Type} {A : ι → Prop} {T : ι → Value → Prop} {Q : ι → α → Machine → Prop}
    (ends : Ends (fun v => ∃ i, A i ∧ T i v) m x fun a k => ∃ i, A i ∧ Q i a k) :
    ∃ i, A i ∧ Ends (T i) m x (Q i) := by
  unfold Ends at ends ⊢
  split at ends <;> exact ends

theorem withFrame (f : Frame) (ends : Ends t { m with frames := f :: m.frames } x P)
    (framed : ∀ a k frames, P a k → P a { k with frames := frames }) :
    Ends t m (withFrame f x) P := by
  unfold Ends at ends ⊢
  cases ran : x { m with frames := f :: m.frames } with
  | ok a k =>
    rw [ran] at ends
    simpa only [Script.withFrame, ran] using framed a k m.frames ends
  | error v k =>
    rw [ran] at ends
    simpa only [Script.withFrame, ran] using ends

end Ends

namespace Gives

variable {x : Run α} {a : α}

theorem of_grown {k : Machine} (gives : Gives m x a) (grown : m.Grown k) : Gives k x a :=
  fun l later => gives l (grown.trans later)

theorem pure (m : Machine) (a : α) : Gives m (Pure.pure a) a := fun k _ => ⟨k, rfl, .refl k⟩

theorem of_run (told : ∀ k, m.Grown k → x k = .ok a k) : Gives m x a :=
  fun k grown => ⟨k, told k grown, .refl k⟩

theorem bind {f : α → Run β} {b : β} (first : Gives m x a) (second : Gives m (f a) b) :
    Gives m (x >>= f) b := by
  intro k grown
  obtain ⟨l, ran, later⟩ := first k grown
  obtain ⟨j, more, last⟩ := second l (grown.trans later)
  exact ⟨j, (run_bind ran).trans more, later.trans last⟩

theorem then_ends {f : α → Run β} {Q : β → Machine → Prop} (first : Gives m x a)
    (second : ∀ k, m.Grown k → Ends t k (f a) Q) : Ends t m (x >>= f) Q := by
  obtain ⟨k, ran, grown⟩ := first m (.refl m)
  rw [Ends, run_bind ran]
  exact second k grown

theorem ends (gives : Gives m x a) : Ends t m x fun b k => b = a ∧ m.Grown k := by
  obtain ⟨k, ran, grown⟩ := gives m (.refl m)
  exact .of_ok ran ⟨rfl, grown⟩

theorem eq {b : α} {k : Machine} (gives : Gives m x a) (ran : x m = .ok b k) : b = a := by
  obtain ⟨l, given, -⟩ := gives m (.refl m)
  rw [given] at ran
  cases ran
  rfl

theorem of_ends (ends : ∀ k, m.Grown k → Ends Never k x fun b l => b = a ∧ k.Grown l) : Gives m x a := by
  intro k grown
  obtain ⟨_, l, ran, rfl, later⟩ := (ends k grown).total
  exact ⟨l, ran, later⟩

/-- What a run reads of the machine it is in, it may read of the machine it began with. -/
theorem get {f : Machine → Run α} (reads : ∀ k, m.Grown k → Gives k (f k) a) :
    Gives m (MonadState.get >>= f) a :=
  fun k grown => reads k grown k (.refl k)

theorem reach (m : Machine) (place : Place) : Gives m (reach place) () := by
  intro k _
  refine ⟨_, rfl, ?_⟩
  dsimp only
  split
  · exact .refl k
  · exact (Machine.Grown.refl k).frames _

end Gives

theorem gives_object {r : Ref} {o : Obj} (there : m.heap[r]? = some o) : Gives m (object r) o := by
  intro k grown
  refine ⟨k, ?_, .refl k⟩
  change EStateM.Result.ok ((k.heap[r]?).getD default) k = _
  rw [grown.heap there]
  rfl

theorem gives_payload {r : Ref} {o : Obj} (there : m.heap[r]? = some o) :
    Gives m (payload r) o.payload :=
  (gives_object there).bind (.pure m _)

end Patchbay.Script
