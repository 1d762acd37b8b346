import Patchbay.Proofs.Script.Standard

/-!
Walks of the built-in iterators. An iterator is an object of its own, and nothing that was there before it
changes while it walks, so it tells what the collection held when the walk began.
-/
namespace Patchbay.Script

open Text

variable {t : Value → Prop} {m k : Machine}

theorem gives_ownProperty (e : Engine) {r : Ref} {key : Key} {v : Value}
    (own : ∀ k, m.Grown k → k.ownProperty? r key = some (.plain v)) :
    Gives m (getProperty e r key) v := by
  unfold getProperty chainLimit getFrom
  apply Gives.get
  intro k grown
  rw [own k grown]
  exact .pure k v

theorem Machine.property?_own {r : Ref} {o : Obj} {key : Key} {v : Value} (there : m.heap[r]? = some o)
    (own : m.ownProperty? r key = some (.plain v)) : m.property? r key = some v :=
  Machine.value?_eq_some.mpr ⟨true, true, true, .own there own⟩

def answer (v : Value) (done : Bool) : Obj where
  proto := some Proto.object.ref
  props := #[(.named "value", .plain v), (.named "done", .plain (.bool done))]

theorem value_ne_done : (Key.named "value" == Key.named "done") = false := by decide

theorem answer_made (v : Value) (done : Bool) :
    (({ proto := some Proto.object.ref } : Obj).insert (.named "value") (.plain v)).insert (.named "done")
      (.plain (.bool done)) = answer v done := by
  simp [Obj.insert, value_ne_done, answer]

def Machine.Answers (m : Machine) (v : Value) (done : Bool) (w : Value) : Prop :=
  ∃ r, w = .object r ∧ m.heap[r]? = some (answer v done)

theorem ends_iteratorAnswer (m : Machine) (v : Value) (done : Bool) :
    Ends t m (iteratorAnswer v done) fun w k => m.Grown k ∧ k.Answers v done w := by
  unfold iteratorAnswer
  refine (ends_newObject m _ _).bind ?_
  rintro r k ⟨grown, fresh, there⟩
  refine (ends_modifyObject grown fresh there fun o => o.insert (.named "value") (.plain v)).bind ?_
  rintro _ l ⟨grown, there⟩
  refine (ends_modifyObject grown fresh there fun o => o.insert (.named "done") (.plain (.bool done))).bind ?_
  rintro _ j ⟨grown, there⟩
  rw [answer_made] at there
  exact .pure ⟨grown, r, rfl, there⟩

section

variable {v w : Value} {done : Bool} (answers : m.Answers v done w)
include answers

theorem gives_done (e : Engine) : Gives m (getValue e w (.named "done")) (.bool done) := by
  obtain ⟨r, rfl, there⟩ := answers
  have own : m.ownProperty? r (.named "done") = some (.plain (.bool done)) := by
    rw [Machine.ownProperty?, there]
    simp [answer, Obj.lookup?, value_ne_done]
  exact gives_getProperty e rfl (Machine.property?_own there own)

theorem gives_value (e : Engine) : Gives m (getValue e w (.named "value")) v := by
  obtain ⟨r, rfl, there⟩ := answers
  have own : m.ownProperty? r (.named "value") = some (.plain v) := by
    rw [Machine.ownProperty?, there]
    simp [answer, Obj.lookup?]
  exact gives_getProperty e rfl (Machine.property?_own there own)

end

def walker (p : Proto) (w : Walk) (n : Nat) : Obj := { proto := some p.ref, payload := .walk w .values n }

/-- An iterator that was made after the machine has come to some place of its walk. -/
structure Machine.Walks (m k : Machine) (it : Ref) (p : Proto) (w : Walk) (n : Nat) : Prop where
  grown : m.Grown k
  fresh : m.heap[it]? = none
  there : k.heap[it]? = some (walker p w n)

theorem Machine.Walks.later {l : Machine} {it : Ref} {p : Proto} {w : Walk} {n : Nat}
    (walks : m.Walks k it p w n) (later : k.Grown l) : m.Walks l it p w n :=
  ⟨walks.grown.trans later, walks.fresh, later.heap walks.there⟩

inductive Yields (m : Machine) (e : Engine) (w : Walk) : Nat → List Value → Prop
  | nil {n : Nat} (ends : Gives m (nextItem e w .values n) none) : Yields m e w n []
  | cons {n after : Nat} {v : Value} {vs : List Value}
      (found : Gives m (nextItem e w .values n) (some (v, after))) (rest : Yields m e w after vs) :
      Yields m e w n (v :: vs)

section

variable {d n : Nat} {it next : Ref} {p : Proto} {w : Walk} (walks : m.Walks k it p w n)
  (native : m.native? (.object next) = some (.iterator .next))
include walks

theorem ends_next_item {v : Value} {after : Nat}
    (found : Gives m (nextItem (engine d) w .values n) (some (v, after))) :
    Ends t k (IteratorFn.run .next ⟨engine d, next, .object it, [], none⟩) fun a l =>
      m.Walks l it p w after ∧ l.Answers v false a := by
  refine (gives_payload walks.there).then_ends ?_
  intro k₁ first
  refine (found.of_grown (walks.later first).grown).then_ends ?_
  intro k₂ second
  have walks := (walks.later first).later second
  refine (ends_modifyObject walks.grown walks.fresh walks.there _).bind ?_
  rintro _ l ⟨grown, there⟩
  refine (ends_iteratorAnswer l v false).mono ?_
  rintro a j ⟨later, answers⟩
  exact ⟨Machine.Walks.later ⟨grown, walks.fresh, there⟩ later, answers⟩

theorem ends_next_end (ended : Gives m (nextItem (engine d) w .values n) none) :
    Ends t k (IteratorFn.run .next ⟨engine d, next, .object it, [], none⟩) fun a l =>
      m.Grown l ∧ l.Answers .undefined true a := by
  refine (gives_payload walks.there).then_ends ?_
  intro k₁ first
  refine (ended.of_grown (walks.later first).grown).then_ends ?_
  intro k₂ second
  have walks := (walks.later first).later second
  refine (ends_modifyObject walks.grown walks.fresh walks.there _).bind ?_
  rintro _ l ⟨grown, -⟩
  refine (ends_iteratorAnswer l .undefined true).mono ?_
  rintro a j ⟨later, answers⟩
  exact ⟨grown.trans later, answers⟩

include native

theorem ends_step_item {v : Value} {after : Nat}
    (found : Gives m (nextItem (engine d) w .values n) (some (v, after))) :
    Ends t k (Iterator.step? (engine (d + 1)) ⟨.object it, .object next⟩) fun item l =>
      item = some v ∧ m.Walks l it p w after := by
  refine Ends.bind (ends_callNative (walks.grown.native? native) nofun ?_ fun l later =>
    ends_next_item (walks.later later) found) ?_
  · rintro a l frames ⟨walks, answers⟩
    exact ⟨walks.later ((Machine.Grown.refl l).frames frames), answers⟩
  · rintro a l ⟨walks, answers⟩
    have done := gives_done answers (engine (d + 1))
    have value := gives_value answers (engine (d + 1))
    obtain ⟨r, rfl, -⟩ := answers
    refine done.then_ends ?_
    intro j later
    refine (value.of_grown later).then_ends ?_
    intro i last
    exact .pure ⟨rfl, walks.later (later.trans last)⟩

theorem ends_step_end (ended : Gives m (nextItem (engine d) w .values n) none) :
    Ends t k (Iterator.step? (engine (d + 1)) ⟨.object it, .object next⟩) fun item l =>
      item = none ∧ m.Grown l := by
  refine Ends.bind (ends_callNative (walks.grown.native? native) nofun ?_ fun l later =>
    ends_next_end (walks.later later) ended) ?_
  · rintro a l frames ⟨grown, answers⟩
    exact ⟨grown.frames frames, answers⟩
  · rintro a l ⟨grown, answers⟩
    have done := gives_done answers (engine (d + 1))
    obtain ⟨r, rfl, -⟩ := answers
    refine done.then_ends ?_
    intro j later
    exact .pure ⟨rfl, grown.trans later⟩

end

def Machine.HasRoom (m : Machine) (count : Nat) : Prop := ∀ limit ∈ m.memoryLimit, 16 * count ≤ limit

theorem gives_claimBytes {count size : Nat} (room : m.HasRoom count) (less : size ≤ count) :
    Gives m (claimBytes (16 * size)) () := by
  unfold claimBytes
  apply Gives.get
  intro k grown
  have free : (k.memoryLimit.any fun limit => limit < 16 * size) = false := by
    rw [grown.limit]
    cases limited : m.memoryLimit with
    | none => rfl
    | some limit =>
      have enough := room limit limited
      simp only [Option.any_some, decide_eq_false_iff_not]
      omega
  rw [free]
  exact .pure k ()

def gather (e : Engine) (it : Iterator) (items : Array Value) : Run (Array Value ⊕ Array Value) := do
  match ← it.step? e with
  | some item =>
    claimBytes (16 * items.size)
    return .inl (items.push item)
  | none => return .inr items

theorem ends_gather {d n : Nat} {it next : Ref} {p : Proto} {w : Walk}
    (native : m.native? (.object next) = some (.iterator .next)) {vs : List Value}
    (yields : Yields m (engine d) w n vs) {fuel : Nat} (enough : vs.length < fuel) (items : Array Value)
    (room : m.HasRoom (items.size + vs.length)) {k : Machine} (walks : m.Walks k it p w n) :
    Ends t k (repeatRun (gather (engine (d + 1)) ⟨.object it, .object next⟩) fuel items) fun all l =>
      all.toList = items.toList ++ vs ∧ m.Grown l := by
  -- Nothing that the machine held changes on the way, so each step finds the walk where the last one left it.
  induction yields generalizing k items fuel with
  | nil ended =>
    obtain ⟨fuel, rfl⟩ := Nat.exists_eq_add_of_lt enough
    rw [repeatRun, gather, bind_assoc]
    refine (ends_step_end walks native ended).bind ?_
    rintro _ l ⟨rfl, grown⟩
    exact .pure ⟨(List.append_nil _).symm, grown⟩
  | @cons n after v vs found rest ih =>
    obtain ⟨fuel, rfl⟩ := Nat.exists_eq_add_of_lt enough
    rw [repeatRun, gather, bind_assoc]
    refine (ends_step_item walks native found).bind ?_
    rintro _ l ⟨rfl, walks⟩
    rw [bind_assoc]
    refine Gives.then_ends ((gives_claimBytes room (Nat.le_add_right _ _)).of_grown walks.grown) ?_
    intro j later
    refine (ih ?_ (items.push v) ?_ (walks.later later)).mono ?_
    · simp only [List.length_cons]
      omega
    · simpa [Nat.add_assoc, Nat.add_comm 1] using room
    · rintro all i ⟨gathered, grown⟩
      exact ⟨by simpa using gathered, grown⟩

/-- An object tells what it holds by a function of the language, whose iterators are as the language made
them. -/
structure Machine.Iterates (m : Machine) (r : Ref) (f : Native) (p : Proto) : Prop where
  own : (m.property? r (.symbol symbolIterator)).bind m.native? = some f
  next : (m.value? (.named "next") 1 p.ref).bind m.native? = some (.iterator .next)

instance (m : Machine) (r : Ref) (f : Native) (p : Proto) : Decidable (m.Iterates r f p) :=
  decidable_of_iff ((m.property? r (.symbol symbolIterator)).bind m.native? = some f ∧
    (m.value? (.named "next") 1 p.ref).bind m.native? = some (.iterator .next))
    ⟨fun ⟨own, next⟩ => ⟨own, next⟩, fun iterates => ⟨iterates.own, iterates.next⟩⟩

theorem Machine.Iterates.maker {r : Ref} {f : Native} {p : Proto} (iterates : m.Iterates r f p) :
    ∃ s, m.property? r (.symbol symbolIterator) = some (.object s) ∧ m.native? (.object s) = some f := by
  obtain ⟨v, found, native⟩ := Option.bind_eq_some_iff.mp iterates.own
  obtain ⟨s, _, rfl, -⟩ := Machine.native?_eq_some.mp native
  exact ⟨s, found, native⟩

theorem Machine.Iterates.step {r : Ref} {f : Native} {p : Proto} (iterates : m.Iterates r f p) :
    ∃ next, m.native? (.object next) = some (.iterator .next) ∧
      ∀ k it w n, m.Walks k it p w n → k.property? it (.named "next") = some (.object next) := by
  obtain ⟨v, found, native⟩ := Option.bind_eq_some_iff.mp iterates.next
  obtain ⟨next, _, rfl, -⟩ := Machine.native?_eq_some.mp native
  refine ⟨next, native, fun k it w n walks => ?_⟩
  obtain ⟨writable, enumerable, configurable, found⟩ := Machine.value?_eq_some.mp found
  obtain ⟨there, has⟩ | ⟨_, _, _, _, above⟩ := found
  · have has := (walks.grown.ownProperty? there rfl).trans has
    have lacks : k.ownProperty? it (.named "next") = none := by
      rw [Machine.ownProperty?, walks.there]
      rfl
    exact Machine.value?_eq_some.mpr ⟨writable, enumerable, configurable,
      .above walks.there lacks (by rintro _ _ _ ⟨⟩) rfl (.own (walks.grown.heap there) has)⟩
  · cases above

section

variable {d : Nat} {r : Ref} {f : Native} {p : Proto} {w : Walk} {vs : List Value}
  (iterates : m.Iterates r f p) (language : ∀ h, f ≠ .host h)
  (makes : ∀ s k, m.Grown k → Ends t k (f.run ⟨engine d, s, .object r, [], none⟩) fun a l =>
    ∃ it, a = .object it ∧ m.Walks l it p w 0)
  (yields : Yields m (engine d) w 0 vs) (enough : vs.length < loopLimit) (room : m.HasRoom vs.length)
include iterates language makes yields enough room

theorem ends_itemsOf {k : Machine} (grown : m.Grown k) :
    Ends t k (itemsOf (engine (d + 1)) (.object r)) fun items l => items = vs ∧ m.Grown l := by
  obtain ⟨s, found, native⟩ := iterates.maker
  unfold itemsOf iteratorOf
  rw [bind_assoc]
  refine ((gives_getProperty _ rfl found).of_grown grown).then_ends ?_
  intro k₁ later
  have grown := grown.trans later
  rw [bind_assoc]
  refine ((gives_isCallable_native native).of_grown grown).then_ends ?_
  intro k₂ later
  have grown := grown.trans later
  rw [if_pos rfl, bind_assoc]
  refine Ends.bind (ends_callNative (grown.native? native) language ?_
    fun l later => makes s l (grown.trans later)) ?_
  · rintro a l frames ⟨it, made, walks⟩
    exact ⟨it, made, walks.later ((Machine.Grown.refl l).frames frames)⟩
  · rintro _ l ⟨it, rfl, walks⟩
    obtain ⟨next, native, step⟩ := iterates.step
    have isObject : (Value.object it).isObject = true := rfl
    rw [if_pos isObject, bind_assoc]
    refine Gives.then_ends (gives_getProperty _ rfl (step l it w 0 walks)) ?_
    intro j later
    rw [pure_bind]
    refine (ends_gather native yields enough #[] ?_ (walks.later later)).bind ?_
    · simpa using room
    · rintro all i ⟨gathered, grown⟩
      exact .pure ⟨by simpa using gathered, grown⟩

theorem ends_sourceItems {k : Machine} (grown : m.Grown k) :
    Ends t k (sourceItems (engine (d + 1)) (.object r)) fun items l => items = vs ∧ m.Grown l := by
  obtain ⟨s, found, native⟩ := iterates.maker
  refine ((gives_method rfl found native).of_grown grown).then_ends ?_
  intro l later
  exact ends_itemsOf iterates language makes yields enough room (grown.trans later)

end

end Patchbay.Script
