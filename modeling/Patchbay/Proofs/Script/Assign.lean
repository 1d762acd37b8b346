import Patchbay.Proofs.Script.Helper
import Patchbay.Script.Fault
import Patchbay.Script.Property.Write

/-!
Assignments and reads in which no script has a say: as long as no proxy is met and no getter or setter
found, the engine runs nothing of a script. An assignment to an ordinary object then either puts the
property there or changes nothing.
-/
namespace Patchbay.Script

open Text

variable {m k : Machine} {key : Key} {v : Value}

/-- Whether an object answers for a key by other means than its properties: a proxy for every key, and a
typed array for indices. -/
def Payload.isExotic (key : Key) : Payload → Bool
  | .proxy .. => true
  | .typed .. => !key.isName
  | _ => false

theorem Payload.not_typed {p : Payload} (plain : p.isExotic key = false) :
    key.isName = true ∨ ∀ e buffer offset length, p ≠ .typed e buffer offset length := by
  by_cases name : key.isName = true
  · exact .inl name
  · right
    rintro e buffer offset length rfl
    simp [Payload.isExotic, name] at plain

theorem Machine.Grown.ownProperty?_plain (grown : m.Grown k) {r : Ref} {o : Obj}
    (there : m.heap[r]? = some o) (plain : o.payload.isExotic key = false) :
    k.ownProperty? r key = m.ownProperty? r key :=
  Machine.ownProperty?_congr there (grown.heap there) rfl rfl (Payload.not_typed plain)

/-- What is found under a key on an object or along its prototypes. Nothing is told when an object is met
that answers by other means, or when the prototypes come to no end. -/
def Machine.seek? (m : Machine) (key : Key) : Nat → Ref → Option (Option Property)
  | 0, _ => none
  | fuel + 1, r =>
    match m.heap[r]? with
    | none => none
    | some o =>
      if o.payload.isExotic key then none
      else
        match m.ownProperty? r key, o.proto with
        | some p, _ => some (some p)
        | none, some p => m.seek? key fuel p
        | none, none => some none

/-- The walk of `seek?` as a relation. -/
inductive Machine.Seeks (m : Machine) (key : Key) (found : Option Property) : Nat → Ref → Prop
  | own {fuel : Nat} {r : Ref} {o : Obj} {p : Property} (there : m.heap[r]? = some o)
      (plain : o.payload.isExotic key = false) (has : m.ownProperty? r key = some p)
      (is : found = some p) : Seeks m key found (fuel + 1) r
  | above {fuel : Nat} {r above : Ref} {o : Obj} (there : m.heap[r]? = some o)
      (plain : o.payload.isExotic key = false) (lacks : m.ownProperty? r key = none)
      (proto : o.proto = some above) (rest : Seeks m key found fuel above) : Seeks m key found (fuel + 1) r
  | top {fuel : Nat} {r : Ref} {o : Obj} (there : m.heap[r]? = some o)
      (plain : o.payload.isExotic key = false) (lacks : m.ownProperty? r key = none)
      (proto : o.proto = none) (is : found = none) : Seeks m key found (fuel + 1) r

theorem Machine.seeks_of_seek? {fuel : Nat} {r : Ref} {found : Option Property}
    (sought : m.seek? key fuel r = some found) : m.Seeks key found fuel r := by
  induction fuel generalizing r with
  | zero => cases sought
  | succ fuel ih =>
    cases there : m.heap[r]? with
    | none => simp [seek?, there] at sought
    | some o =>
      simp only [seek?, there, Option.ite_none_left_eq_some, Bool.not_eq_true] at sought
      obtain ⟨plain, sought⟩ := sought
      split at sought
      · rename_i has
        exact .own there plain has (Option.some.inj sought).symm
      · rename_i lacks proto
        exact .above there plain lacks proto (ih sought)
      · rename_i lacks proto
        exact .top there plain lacks proto (Option.some.inj sought).symm

theorem Machine.seek?_of_seeks {fuel : Nat} {r : Ref} {found : Option Property}
    (seeks : m.Seeks key found fuel r) : m.seek? key fuel r = some found := by
  induction seeks with
  | own there plain has is => simp [seek?, there, plain, has, is]
  | above there plain lacks proto _ ih => simp [seek?, there, plain, lacks, proto, ih]
  | top there plain lacks proto is => simp [seek?, there, plain, lacks, proto, is]

theorem Machine.Grown.seeks (grown : m.Grown k) {fuel : Nat} {r : Ref} {found : Option Property}
    (seeks : m.Seeks key found fuel r) : k.Seeks key found fuel r := by
  induction seeks with
  | own there plain has is =>
    exact .own (grown.heap there) plain ((grown.ownProperty?_plain there plain).trans has) is
  | above there plain lacks proto _ ih =>
    exact .above (grown.heap there) plain ((grown.ownProperty?_plain there plain).trans lacks) proto ih
  | top there plain lacks proto is =>
    exact .top (grown.heap there) plain ((grown.ownProperty?_plain there plain).trans lacks) proto is

/-- The value of what was found, as long as no getter has to be called for it. -/
def told? : Option Property → Option Value
  | none => some .undefined
  | some ⟨.data v _, _, _⟩ => some v
  | some ⟨.accessor getter _, _, _⟩ => if getter == .undefined then some .undefined else none

theorem gives_getFrom_lacks (e : Engine) {fuel : Nat} {r : Ref} {o : Obj} {receiver : Value}
    (there : m.heap[r]? = some o) (plain : o.payload.isExotic key = false)
    (lacks : m.ownProperty? r key = none)
    (above : Gives m (match o.proto with
      | some p => getFrom e fuel p key receiver
      | none => return .undefined) v) : Gives m (getFrom e (fuel + 1) r key receiver) v := by
  unfold getFrom
  apply Gives.get
  intro k grown
  rw [grown.ownProperty?_plain there plain, lacks]
  refine Gives.bind (gives_object (grown.heap there)) ?_
  split
  · rename_i proxy
    simp [proxy, Payload.isExotic] at plain
  · exact above.of_grown grown

theorem gives_getFrom_told (e : Engine) {fuel : Nat} {r : Ref} {found : Option Property}
    (seeks : m.Seeks key found fuel r) (told : told? found = some v) (receiver : Value) :
    Gives m (getFrom e fuel r key receiver) v := by
  induction seeks with
  | @own fuel r o p there plain has is =>
    unfold getFrom
    apply Gives.get
    intro k grown
    rw [grown.ownProperty?_plain there plain, has]
    obtain ⟨w | ⟨getter, setter⟩, enumerable, configurable⟩ := p
    · cases is
      cases told
      exact .pure k v
    · rw [is] at told
      obtain ⟨unset, ⟨⟩⟩ := Option.ite_none_right_eq_some.mp told
      dsimp only
      rw [if_pos unset]
      exact .pure k Value.undefined
  | above there plain lacks proto _ ih =>
    apply gives_getFrom_lacks e there plain lacks
    rw [proto]
    exact ih
  | top there plain lacks proto is =>
    apply gives_getFrom_lacks e there plain lacks
    rw [proto]
    rw [is] at told
    cases told
    exact .pure m _

theorem machine_bind {β : Type} (m : Machine) (f : Machine → Run β) : (get >>= f) m = f m m := rfl

/-- Whether an assignment to what was found calls nothing. -/
def unset : Option Property → Bool
  | none | some ⟨.data _ _, _, _⟩ => true
  | some ⟨.accessor _ setter, _, _⟩ => setter == .undefined

def Machine.withProperty (m : Machine) (r : Ref) (key : Key) (p : Property) : Machine :=
  { m with heap := m.heap.modify r fun o => o.insert key p }

theorem Obj.lookup?_insert (o : Obj) (key : Key) (p : Property) :
    (o.insert key p).lookup? key = some p := by
  unfold insert lookup?
  cases place : o.props.findIdx? fun entry => entry.1 == key with
  | none =>
    have lacks : o.props.find? (fun entry => entry.1 == key) = none :=
      Array.find?_eq_none.mpr (by simpa using Array.findIdx?_eq_none_iff.mp place)
    simp [Array.find?_push, lacks]
  | some i =>
    obtain ⟨inside, there, before⟩ := Array.findIdx?_eq_some_iff_getElem.mp place
    have found : (o.props.modify i fun entry => (entry.1, p)).find? (fun entry => entry.1 == key) =
        some (o.props[i].1, p) := by
      rw [Array.find?_eq_some_iff_getElem]
      refine ⟨there, i, by simpa using inside, by simp [Array.getElem_modify], fun j earlier => ?_⟩
      simpa [Array.getElem_modify, Nat.ne_of_gt earlier] using before j earlier
    simp [found]

theorem find?_modify {α : Type} {q : α → Bool} {f : α → α} {xs : List α} {i : Nat}
    (passed : ∀ x ∈ xs[i]?, q x = false ∧ q (f x) = false) : (xs.modify i f).find? q = xs.find? q := by
  induction xs generalizing i with
  | nil => simp
  | cons x xs ih =>
    cases i with
    | zero => simp_all
    | succ i => simp [List.find?_cons, ih passed]

theorem Obj.lookup?_insert_of_ne (o : Obj) {key other : Key} (apart : other ≠ key) (p : Property) :
    (o.insert key p).lookup? other = o.lookup? other := by
  unfold insert lookup?
  cases place : o.props.findIdx? fun entry => entry.1 == key with
  | none => simp [Array.find?_push, apart.symm]
  | some i =>
    obtain ⟨inside, there, -⟩ := Array.findIdx?_eq_some_iff_getElem.mp place
    have same : o.props[i].1 = key := by simpa using there
    have passed (entry : Key × Property) (same : entry.1 = key) : (entry.1 == other) = false := by
      simpa [same] using apart.symm
    simp only [← Array.find?_toList, Array.toList_modify]
    rw [find?_modify]
    intro entry member
    simp only [Array.getElem?_toList, Array.getElem?_eq_getElem inside, Option.mem_some_iff] at member
    subst member
    exact ⟨passed _ same, passed _ same⟩

def Machine.IsPlain (m : Machine) (r : Ref) : Prop := ∃ o, m.heap[r]? = some o ∧ o.payload = .plain

instance (m : Machine) (r : Ref) : Decidable (m.IsPlain r) :=
  decidable_of_iff ((m.heap[r]?).any fun o => o.payload matches .plain) <| by
    simp only [Option.any_eq_true, Machine.IsPlain]
    refine exists_congr fun o => and_congr_right fun _ => ?_
    cases o.payload <;> simp

theorem store_plain {r : Ref} (plain : m.IsPlain r) (key : Key) (p : Property) :
    store r key p m = .ok () (m.withProperty r key p) := by
  obtain ⟨o, there, payload⟩ := plain
  unfold store
  split
  · rw [object_bind, there]
    simp only [Option.getD_some, payload]
    rfl
  · rfl

/-- What an assignment does that has found its way to an object: the property is put there, or it is told
why not. -/
inductive Machine.Puts (m : Machine) (r : Ref) (key : Key) (v : Value) : Assigned → Machine → Prop
  | done {p : Property} (is : p.slot = .data v true) : Puts m r key v .done (m.withProperty r key p)
  | refused {a : Assigned} (other : a ≠ .done) : Puts m r key v a m

theorem putOnReceiver_plain (e : Engine) {r : Ref} (plain : m.IsPlain r) (key : Key) (v : Value) :
    ∃ a k, putOnReceiver e key v (.object r) m = .ok a k ∧ m.Puts r key v a k := by
  have stores := fun p => store_plain plain key p
  obtain ⟨o, there, payload⟩ := id plain
  have own : putOnReceiver e key v (.object r) m = putOwn e key v r m := by
    have kind : Script.payload r m = .ok .plain m := by
      rw [Script.payload, object_bind, there, Option.getD_some, payload]
      rfl
    exact run_bind kind
  rw [own, putOwn, object_bind, there, machine_bind]
  simp only [Option.getD_some, payload]
  generalize m.ownProperty? r key = held
  match held with
  | some ⟨.data _ true, enumerable, configurable⟩ =>
    refine ⟨.done, _, ?_, .done (p := ⟨.data v true, enumerable, configurable⟩) rfl⟩
    dsimp only
    rw [run_bind (stores _)]
    rfl
  | some ⟨.data _ false, _, _⟩ => exact ⟨.readOnly, m, rfl, .refused nofun⟩
  | some ⟨.accessor _ _, _, _⟩ => exact ⟨.noSetter, m, rfl, .refused nofun⟩
  | none =>
    dsimp only
    rw [if_neg (show ¬Payload.plain.ends key = true from Bool.false_ne_true)]
    split
    · refine ⟨.done, _, ?_, .done (p := .plain v) rfl⟩
      rw [create, run_bind (stores _)]
      rfl
    · exact ⟨.notExtensible, m, rfl, .refused nofun⟩

/-- An assignment to an ordinary object, where nothing found on the way calls a script. -/
theorem putFrom_plain (e : Engine) {r : Ref} (plain : m.IsPlain r) {fuel : Nat} {s : Ref}
    {found : Option Property} (seeks : m.Seeks key found fuel s) (calls : unset found = true) :
    ∃ a k, putFrom e fuel s key v (.object r) m = .ok a k ∧ m.Puts r key v a k := by
  have received := putOnReceiver_plain e plain key v
  induction fuel generalizing s with
  | zero => cases seeks
  | succ fuel ih =>
    rw [putFrom]
    cases own : m.ownProperty? s key with
    | some p =>
      obtain ⟨o, there, is⟩ : ∃ o, m.heap[s]? = some o ∧ found = some p := by
        cases seeks with
        | own there _ has is => exact ⟨_, there, is.trans (has.symm.trans own)⟩
        | above _ _ lacks | top _ _ lacks => cases lacks.symm.trans own
      rw [object_bind, there, machine_bind, own]
      rw [is] at calls
      match p with
      | ⟨.data _ true, _, _⟩ => exact received
      | ⟨.data _ false, _, _⟩ => exact ⟨.readOnly, m, rfl, .refused nofun⟩
      | ⟨.accessor _ setter, _, _⟩ =>
        refine ⟨.noSetter, m, ?_, .refused nofun⟩
        dsimp only
        rw [if_pos (show (setter == Value.undefined) = true from calls)]
        rfl
    | none =>
      obtain ⟨o, there, regular, a, k, ran, puts⟩ : ∃ o, m.heap[s]? = some o ∧
          o.payload.isExotic key = false ∧ ∃ a k, (match o.proto with
            | some p => putFrom e fuel p key v (.object r)
            | none => putOnReceiver e key v (.object r)) m = .ok a k ∧ m.Puts r key v a k := by
        cases seeks with
        | own _ _ has => cases has.symm.trans own
        | above there regular _ proto rest => exact ⟨_, there, regular, by rw [proto]; exact ih rest⟩
        | top there regular _ proto => exact ⟨_, there, regular, by rw [proto]; exact received⟩
      refine ⟨a, k, ?_, puts⟩
      rw [object_bind, there, machine_bind, own]
      simp only [Option.getD_some]
      generalize o.payload = payload at regular ⊢
      cases payload with
      | proxy => cases regular
      | typed =>
        cases key with
        | index n => cases regular
        | text s | symbol id => exact ran
      | _ => exact ran

theorem property?_withProperty {r : Ref} (plain : m.IsPlain r) {p : Property} {writable : Bool}
    (is : p.slot = .data v writable) : (m.withProperty r key p).property? r key = some v := by
  obtain ⟨o, there, payload⟩ := plain
  have there : (m.withProperty r key p).heap[r]? = some (o.insert key p) := by
    rw [Machine.withProperty, Array.getElem?_modify, if_pos rfl, there]
    rfl
  refine Machine.value?_eq_some.mpr ⟨writable, p.enumerable, p.configurable, .own there ?_⟩
  rw [Machine.ownProperty?, there]
  simp only [Option.getD_some, Obj.payload_insert, payload]
  rw [Obj.lookup?_insert, ← is]

end Patchbay.Script
