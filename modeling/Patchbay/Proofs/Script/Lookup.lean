import Patchbay.Proofs.Script.Growth
import Patchbay.Script.Lift

/-!
What the engine finds without running anything: properties that hold a value, prototypes, and what kind of
value stands behind proxies. Each is told by a function of the machine, and found again as the machine
grows. Getters and the handlers of proxies run code, so nothing is said of what they answer; that the
objects that a value leads to are there is taken for granted where something is not found.
-/
namespace Patchbay.Script

open Text

variable {m k : Machine}

theorem chainLimit_succ : chainLimit = chainLimit - 1 + 1 := rfl

/-- The property that is found on an object or along its prototypes, as long as no proxy is met. -/
def Machine.find? (m : Machine) (key : Key) : Nat → Ref → Option Property
  | 0, _ => none
  | fuel + 1, r =>
    match m.heap[r]? with
    | none => none
    | some o =>
      match m.ownProperty? r key, o.payload with
      | some p, _ => some p
      | none, .proxy .. => none
      | none, _ => o.proto.bind (m.find? key fuel)

def Machine.value? (m : Machine) (key : Key) (fuel : Nat) (r : Ref) : Option Value :=
  match m.find? key fuel r with
  | some ⟨.data v _, _, _⟩ => some v
  | _ => none

def Machine.property? (m : Machine) (r : Ref) (key : Key) : Option Value := m.value? key chainLimit r

def Machine.follow? (m : Machine) : Value → List Key → Option Value
  | v, [] => some v
  | .object r, key :: rest => (m.property? r key).bind fun v => m.follow? v rest
  | _, _ :: _ => none

def Machine.native? (m : Machine) : Value → Option Native
  | .object r =>
    match (m.heap[r]?).map Obj.payload with
    | some (.native f) => some f
    | _ => none
  | _ => none

/-- The key is no index, so an object tells by itself what it has under it. -/
def Key.isName : Key → Bool
  | .index _ => false
  | _ => true

/-- What an object itself has under a key is told by its kind and its properties, but for the elements of
a typed array, which are those of a buffer. -/
theorem Machine.ownProperty?_congr {r : Ref} {o p : Obj} {key : Key} (mine : m.heap[r]? = some o)
    (yours : k.heap[r]? = some p) (payload : p.payload = o.payload) (same : p.lookup? key = o.lookup? key)
    (plain : key.isName = true ∨ ∀ e buffer offset length, o.payload ≠ .typed e buffer offset length) :
    k.ownProperty? r key = m.ownProperty? r key := by
  simp only [Machine.ownProperty?, mine, yours, Option.getD_some, payload]
  cases kind : o.payload with
  | typed e buffer offset length =>
    cases key with
    | index n =>
      rcases plain with name | plain
      · cases name
      · exact absurd kind (plain e buffer offset length)
    | _ => exact same
  | list items length resizable =>
    cases key <;> simp only [same]
  | wrapper w => cases w <;> simp only [same]
  | _ => exact same

theorem Machine.Grown.ownProperty? (grown : m.Grown k) {r : Ref} {o : Obj} (there : m.heap[r]? = some o)
    {key : Key} (name : key.isName) : k.ownProperty? r key = m.ownProperty? r key :=
  Machine.ownProperty?_congr there (grown.heap there) rfl rfl (.inl name)

/-- Where a property is found: on the object itself, or on the one that stands above it. -/
inductive Machine.Found (m : Machine) (key : Key) (p : Property) : Nat → Ref → Prop
  | own {fuel : Nat} {r : Ref} {o : Obj} (there : m.heap[r]? = some o)
      (has : m.ownProperty? r key = some p) : Found m key p (fuel + 1) r
  | above {fuel : Nat} {r above : Ref} {o : Obj} (there : m.heap[r]? = some o)
      (lacks : m.ownProperty? r key = none)
      (plain : ∀ target handler callable, o.payload ≠ .proxy target handler callable)
      (proto : o.proto = some above) (rest : Found m key p fuel above) : Found m key p (fuel + 1) r

theorem Machine.found_iff {key : Key} {fuel : Nat} {r : Ref} {p : Property} :
    m.Found key p fuel r ↔ m.find? key fuel r = some p := by
  constructor
  · intro found
    induction found with
    | own there has => simp [Machine.find?, there, has]
    | above there lacks plain proto _ ih =>
      simp only [Machine.find?, there, lacks, proto, Option.bind_some, ih]
  · intro found
    induction fuel generalizing r with
    | zero => cases found
    | succ fuel ih =>
      cases there : m.heap[r]? with
      | none => simp [Machine.find?, there] at found
      | some o =>
        simp only [Machine.find?, there] at found
        split at found
        · rename_i has
          cases found
          exact .own there has
        · cases found
        · rename_i lacks plain
          obtain ⟨above, proto, rest⟩ := Option.bind_eq_some_iff.mp found
          exact .above there lacks plain proto (ih rest)

/-- Every object is there, of its kind, with its prototype and what it has of its own under the key. -/
def Machine.Keeps (m k : Machine) (key : Key) : Prop :=
  ∀ (r : Ref) (o : Obj), m.heap[r]? = some o →
    ∃ p, k.heap[r]? = some p ∧ p.proto = o.proto ∧ p.payload = o.payload ∧ p.lookup? key = o.lookup? key

theorem Machine.Grown.keeps (grown : m.Grown k) (key : Key) : m.Keeps k key :=
  fun _ o there => ⟨o, grown.heap there, rfl, rfl, rfl⟩

theorem Machine.Keeps.ownProperty? {key : Key} (keeps : m.Keeps k key) (name : key.isName) {r : Ref} {o : Obj}
    (there : m.heap[r]? = some o) : ∃ p, k.heap[r]? = some p ∧ p.proto = o.proto ∧ p.payload = o.payload ∧
      k.ownProperty? r key = m.ownProperty? r key := by
  obtain ⟨p, here, proto, payload, same⟩ := keeps r o there
  exact ⟨p, here, proto, payload, Machine.ownProperty?_congr there here payload same (.inl name)⟩

theorem Machine.Keeps.found {key : Key} (keeps : m.Keeps k key) (name : key.isName) {fuel : Nat} {r : Ref}
    {p : Property} (found : m.Found key p fuel r) : k.Found key p fuel r := by
  induction found with
  | own there has =>
    obtain ⟨_, here, -, -, same⟩ := keeps.ownProperty? name there
    exact .own here (same.trans has)
  | above there lacks plain proto _ ih =>
    obtain ⟨_, here, above, payload, same⟩ := keeps.ownProperty? name there
    exact .above here (same.trans lacks) (payload ▸ plain) (above.trans proto) ih

theorem Machine.value?_eq_some {key : Key} {fuel : Nat} {r : Ref} {v : Value} :
    m.value? key fuel r = some v ↔
      ∃ w enumerable configurable, m.Found key ⟨.data v w, enumerable, configurable⟩ fuel r := by
  simp only [Machine.found_iff, Machine.value?]
  constructor
  · intro found
    split at found
    · rename_i property
      cases found
      exact ⟨_, _, _, property⟩
    · cases found
  · rintro ⟨w, enumerable, configurable, property⟩
    rw [property]

theorem Machine.Keeps.value? {key : Key} (keeps : m.Keeps k key) (name : key.isName) {fuel : Nat} {r : Ref}
    {v : Value} (found : m.value? key fuel r = some v) : k.value? key fuel r = some v := by
  obtain ⟨w, enumerable, configurable, there⟩ := Machine.value?_eq_some.mp found
  exact Machine.value?_eq_some.mpr ⟨w, enumerable, configurable, keeps.found name there⟩

theorem Machine.Keeps.property? {key : Key} (keeps : m.Keeps k key) (name : key.isName) {r : Ref} {v : Value}
    (found : m.property? r key = some v) : k.property? r key = some v :=
  keeps.value? name found

theorem Machine.Grown.property? (grown : m.Grown k) {key : Key} (name : key.isName) {r : Ref} {v : Value}
    (found : m.property? r key = some v) : k.property? r key = some v :=
  (grown.keeps key).property? name found

theorem gives_getFrom (e : Engine) {key : Key} (name : key.isName) {fuel : Nat} {r : Ref} {v : Value}
    {w enumerable configurable : Bool}
    (found : m.Found key ⟨.data v w, enumerable, configurable⟩ fuel r) (receiver : Value) :
    Gives m (getFrom e fuel r key receiver) v := by
  induction found with
  | own there has =>
    unfold getFrom
    apply Gives.get
    intro k grown
    rw [grown.ownProperty? there name, has]
    exact .pure k v
  | above there lacks plain proto _ ih =>
    unfold getFrom
    apply Gives.get
    intro k grown
    rw [grown.ownProperty? there name, lacks]
    refine Gives.bind (gives_object (grown.heap there)) ?_
    split
    · exact absurd ‹_› (plain _ _ _)
    · rw [proto]
      exact ih.of_grown grown

theorem gives_getProperty (e : Engine) {key : Key} (name : key.isName) {r : Ref} {v : Value}
    (found : m.property? r key = some v) : Gives m (getProperty e r key) v := by
  obtain ⟨_, _, _, there⟩ := Machine.value?_eq_some.mp found
  exact gives_getFrom e name there _

theorem gives_hasProperty (e : Engine) {key : Key} (name : key.isName) {r : Ref} {v : Value}
    (found : m.property? r key = some v) : Gives m (hasProperty e r key) true := by
  obtain ⟨_, _, _, there⟩ := Machine.value?_eq_some.mp found
  unfold hasProperty
  generalize chainLimit = fuel at there
  clear found
  induction there with
  | own there has =>
    unfold hasFrom
    apply Gives.get
    intro k grown
    rw [grown.ownProperty? there name, has]
    exact .pure k true
  | above there lacks plain proto _ ih =>
    unfold hasFrom
    apply Gives.get
    intro k grown
    rw [grown.ownProperty? there name, lacks]
    refine Gives.bind (gives_object (grown.heap there)) ?_
    split
    · exact absurd ‹_› (plain _ _ _)
    · rw [proto]
      exact ih.of_grown grown

def Payload.target? : Payload → Option Ref
  | .proxy target _ _ => some target
  | _ => none

theorem object_bind {β : Type} (m : Machine) (r : Ref) (f : Obj → Run β) :
    (object r >>= f) m = f ((m.heap[r]?).getD default) m := rfl

namespace Machine

/-- Whether an object stands above another one. Nothing is said where a proxy is met on the way, as its
handler may have code that answers for it. -/
def inherits (m : Machine) (target : Ref) : Nat → Ref → Option Bool
  | 0, _ => some false
  | fuel + 1, r =>
    match ((m.heap[r]?).getD default).payload with
    | .proxy .. => none
    | _ =>
      match ((m.heap[r]?).getD default).proto with
      | none => some false
      | some p => if p == target then some true else m.inherits target fuel p

def behind (m : Machine) : Nat → Ref → Ref
  | 0, r => r
  | fuel + 1, r =>
    match ((m.heap[r]?).getD default).payload with
    | .proxy target _ _ => m.behind fuel target
    | _ => r

def isList (m : Machine) : Value → Bool
  | .object r => (((m.heap[m.behind chainLimit r]?).getD default).payload matches .list ..)
  | _ => false

def isView (m : Machine) : Value → Bool
  | .object r =>
    match ((m.heap[r]?).getD default).payload with
    | .typed .. | .view .. => true
    | _ => false
  | _ => false

def isSetInstance (m : Machine) : Value → Option Bool
  | .object r => m.inherits Proto.set.ref chainLimit r
  | _ => some false

def isCallable (m : Machine) : Value → Bool
  | .object r =>
    match ((m.heap[r]?).getD default).payload with
    | .closure _ | .native .. | .bound .. => true
    | .proxy _ _ callable => callable
    | _ => false
  | _ => false

/-- Where the prototypes of an object lead, and the proxies among them. -/
inductive Leads (m : Machine) : Ref → Ref → Prop
  | self (r : Ref) : Leads m r r
  | proto {r p s : Ref} {o : Obj} (there : m.heap[r]? = some o) (above : o.proto = some p)
      (rest : Leads m p s) : Leads m r s
  | proxy {r p s : Ref} {o : Obj} (there : m.heap[r]? = some o) (stands : o.payload.target? = some p)
      (rest : Leads m p s) : Leads m r s

/-- All that an object leads to is there. -/
def Grounded (m : Machine) (r : Ref) : Prop := ∀ s, m.Leads r s → s < m.heap.size

def Holds (m : Machine) (v : Value) : Prop := ∀ r ∈ v.ref?, m.Grounded r

def Closed (m : Machine) (refs : List Ref) : Prop :=
  ∀ r ∈ refs, r < m.heap.size ∧ ∀ o ∈ m.heap[r]?,
    (∀ p ∈ o.proto, p ∈ refs) ∧ ∀ p ∈ o.payload.target?, p ∈ refs

instance (m : Machine) (refs : List Ref) : Decidable (m.Closed refs) :=
  inferInstanceAs (Decidable (∀ r ∈ refs, r < m.heap.size ∧ ∀ o ∈ m.heap[r]?,
    (∀ p ∈ o.proto, p ∈ refs) ∧ ∀ p ∈ o.payload.target?, p ∈ refs))

theorem Closed.grounded {refs : List Ref} (closed : m.Closed refs) {r : Ref} (listed : r ∈ refs) :
    m.Grounded r := by
  intro s leads
  induction leads with
  | self r => exact (closed r listed).1
  | proto there above _ ih => exact ih (((closed _ listed).2 _ there).1 _ above)
  | proxy there stands _ ih => exact ih (((closed _ listed).2 _ there).2 _ stands)

namespace Grounded

variable {r : Ref} (grounded : m.Grounded r)
include grounded

theorem inside : r < m.heap.size := grounded r (.self r)

theorem proto {p : Ref} (above : ((m.heap[r]?).getD default).proto = some p) : m.Grounded p := by
  have there := Array.getElem?_eq_getElem grounded.inside
  rw [there] at above
  exact fun s leads => grounded s (.proto there above leads)

theorem proxy {p handler : Ref} {callable : Bool}
    (stands : ((m.heap[r]?).getD default).payload = .proxy p handler callable) : m.Grounded p := by
  have there := Array.getElem?_eq_getElem grounded.inside
  rw [there] at stands
  exact fun s leads => grounded s (.proxy there (congrArg Payload.target? stands) leads)

theorem behind (fuel : Nat) : m.Grounded (m.behind fuel r) := by
  induction fuel generalizing r with
  | zero => exact grounded
  | succ fuel ih =>
    rw [Machine.behind]
    split
    · exact ih (grounded.proxy ‹_›)
    · exact grounded

end Grounded

/-- Each object of a machine stands in another one too, with the same prototype and as the same kind of
object; its properties may be others. -/
def Shaped (m k : Machine) : Prop :=
  ∀ (r : Ref) (o : Obj), m.heap[r]? = some o →
    ∃ p, k.heap[r]? = some p ∧ p.proto = o.proto ∧ p.payload = o.payload

theorem Keeps.shaped {key : Key} (keeps : m.Keeps k key) : m.Shaped k := by
  intro r o there
  obtain ⟨p, here, proto, payload, -⟩ := keeps r o there
  exact ⟨p, here, proto, payload⟩

theorem Grown.shaped (grown : m.Grown k) : m.Shaped k := fun _ o there => ⟨o, grown.heap there, rfl, rfl⟩

namespace Shaped

variable (shaped : m.Shaped k)
include shaped

theorem inside {r : Ref} (inside : r < m.heap.size) : r < k.heap.size := by
  obtain ⟨p, here, _⟩ := shaped r _ (Array.getElem?_eq_getElem inside)
  exact (Array.getElem?_eq_some_iff.mp here).1

theorem object {r : Ref} (inside : r < m.heap.size) :
    ((k.heap[r]?).getD default).proto = ((m.heap[r]?).getD default).proto ∧
      ((k.heap[r]?).getD default).payload = ((m.heap[r]?).getD default).payload := by
  have there := Array.getElem?_eq_getElem inside
  obtain ⟨p, here, proto, payload⟩ := shaped r _ there
  rw [there, here]
  exact ⟨proto, payload⟩

theorem inherits (target : Ref) {fuel : Nat} {r : Ref} (grounded : m.Grounded r) :
    k.inherits target fuel r = m.inherits target fuel r := by
  induction fuel generalizing r with
  | zero => rfl
  | succ fuel ih =>
    obtain ⟨proto, payload⟩ := shaped.object grounded.inside
    simp only [Machine.inherits, payload, proto]
    split
    · rfl
    · split
      · rfl
      · rw [ih (grounded.proto ‹_›)]

theorem behind {fuel : Nat} {r : Ref} (grounded : m.Grounded r) :
    k.behind fuel r = m.behind fuel r := by
  induction fuel generalizing r with
  | zero => rfl
  | succ fuel ih =>
    simp only [Machine.behind, (shaped.object grounded.inside).2]
    split
    · exact ih (grounded.proxy ‹_›)
    · rfl

theorem isList {v : Value} (held : m.Holds v) : k.isList v = m.isList v := by
  cases v with
  | object r =>
    have grounded := held r rfl
    simp only [Machine.isList, shaped.behind grounded, (shaped.object (grounded.behind _).inside).2]
  | _ => rfl

theorem isSetInstance {v : Value} (held : m.Holds v) : k.isSetInstance v = m.isSetInstance v := by
  cases v with
  | object r => exact shaped.inherits _ (held r rfl)
  | _ => rfl

theorem isView {v : Value} (held : m.Holds v) : k.isView v = m.isView v := by
  cases v with
  | object r => simp only [Machine.isView, (shaped.object (held r rfl).inside).2]
  | _ => rfl

theorem isCallable {v : Value} (held : m.Holds v) : k.isCallable v = m.isCallable v := by
  cases v with
  | object r => simp only [Machine.isCallable, (shaped.object (held r rfl).inside).2]
  | _ => rfl

theorem grounded {r : Ref} (grounded : m.Grounded r) : k.Grounded r := by
  intro s leads
  induction leads with
  | self r => exact shaped.inside grounded.inside
  | @proto r p s o there above _ ih =>
    have same := (shaped.object grounded.inside).1
    rw [there, Option.getD_some, above] at same
    exact ih (grounded.proto same.symm)
  | @proxy r p s o there stands _ ih =>
    have same := (shaped.object grounded.inside).2
    rw [there, Option.getD_some] at same
    obtain ⟨handler, callable, proxy⟩ : ∃ handler callable, o.payload = .proxy p handler callable := by
      unfold Payload.target? at stands
      split at stands
      · cases stands
        exact ⟨_, _, ‹_›⟩
      · cases stands
    exact ih (grounded.proxy (same.symm.trans proxy))

theorem holds {v : Value} (held : m.Holds v) : k.Holds v := fun r named => shaped.grounded (held r named)

end Shaped

theorem proxied?_run (m : Machine) (r : Ref) :
    proxied? r m = .ok (match ((m.heap[r]?).getD default).payload with
      | .proxy target handler _ => some (target, handler)
      | _ => none) m := rfl

theorem prototypeOf_run (e : Engine) {r : Ref}
    (plain : ∀ target handler callable,
      ((m.heap[r]?).getD default).payload ≠ .proxy target handler callable) :
    prototypeOf e r m = .ok ((m.heap[r]?).getD default).proto m := by
  have none : proxied? r m = .ok none m := by
    rw [proxied?_run]
    split
    · exact absurd ‹_› (plain _ _ _)
    · rfl
  rw [prototypeOf, chainLimit_succ, protoFrom, run_bind none]
  rfl

theorem inherits_run (e : Engine) {target : Ref} {fuel : Nat} {r : Ref} {b : Bool}
    (told : m.inherits target fuel r = some b) : inheritsFrom e target fuel r m = .ok b m := by
  induction fuel generalizing r with
  | zero =>
    cases told
    rfl
  | succ fuel ih =>
    rw [Machine.inherits] at told
    split at told
    · cases told
    · rename_i plain
      rw [inheritsFrom, run_bind (prototypeOf_run e plain)]
      cases above : ((m.heap[r]?).getD default).proto with
      | none =>
        rw [above] at told
        cases told
        rfl
      | some p =>
        rw [above] at told
        dsimp only at told ⊢
        by_cases there : (p == target) = true
        · rw [if_pos there] at told ⊢
          cases told
          rfl
        · rw [if_neg there] at told ⊢
          exact ih told

theorem behind_run (m : Machine) (fuel : Nat) (r : Ref) :
    behindProxies fuel r m = .ok (m.behind fuel r) m := by
  induction fuel generalizing r with
  | zero => rfl
  | succ fuel ih =>
    rw [behindProxies, run_bind (m.proxied?_run r), Machine.behind]
    cases ((m.heap[r]?).getD default).payload with
    | proxy target handler callable => exact ih target
    | _ => rfl

theorem isList_run (m : Machine) (v : Value) : isListValue v m = .ok (m.isList v) m := by
  cases v with
  | object r =>
    rw [isListValue, run_bind (m.behind_run chainLimit r)]
    rfl
  | _ => rfl

theorem isCallable_run (m : Machine) (v : Value) : Script.isCallable v m = .ok (m.isCallable v) m := by
  cases v with
  | object r =>
    change EStateM.Result.ok _ m = EStateM.Result.ok _ m
    cases held : ((m.heap[r]?).getD default).payload <;> simp only [Machine.isCallable, held]
  | _ => rfl

theorem isView_run (m : Machine) (v : Value) : isViewValue v m = .ok (m.isView v) m := by
  cases v with
  | object r =>
    change EStateM.Result.ok _ m = EStateM.Result.ok _ m
    cases held : ((m.heap[r]?).getD default).payload <;> simp only [Machine.isView, held]
  | _ => rfl

end Machine

variable {v : Value}

theorem gives_isListValue (held : m.Holds v) : Gives m (isListValue v) (m.isList v) :=
  .of_run fun k grown => grown.shaped.isList held ▸ k.isList_run v

theorem gives_isViewValue (held : m.Holds v) : Gives m (isViewValue v) (m.isView v) :=
  .of_run fun k grown => grown.shaped.isView held ▸ k.isView_run v

end Patchbay.Script
