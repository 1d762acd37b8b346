import Patchbay.Proofs.Script.Flatten
import Patchbay.Proofs.Script.Narrow

/-!
What a lift makes of a value. The decision is made by the kind of the value: scalars first, then lists, sets
and views, which are collections, and then all else, which is bare.
-/
namespace Patchbay.Script

open Binary Text

variable {t : Value → Prop} {m k : Machine} {v : Value} {α β : Type}

theorem run_lifted (x : Run α) (f : α → LiftRun β) :
    (monadLift x >>= f : LiftRun β).run = x >>= fun a => (f a).run :=
  ExceptT.run_bind_lift x f

theorem gives_lifted {x : Run α} {a : α} {f : α → LiftRun β} {b : Except Nat β} (first : Gives m x a)
    (rest : Gives m (f a).run b) : Gives m (monadLift x >>= f : LiftRun β).run b := by
  rw [run_lifted]
  exact first.bind rest

theorem gives_then {x : LiftRun α} {a : α} {f : α → LiftRun β} {b : Except Nat β}
    (first : Gives m x.run (.ok a)) (rest : Gives m (f a).run b) : Gives m (x >>= f).run b := by
  rw [ExceptT.run_bind]
  exact first.bind rest

theorem gives_stop {x : LiftRun α} {f : α → LiftRun β} {index : Nat} (fails : Gives m x.run (.error index)) :
    Gives m (x >>= f).run (.error index) := by
  rw [ExceptT.run_bind]
  exact fails.bind (.pure m _)

/-- What a value becomes that has a form of its own on the wire, if it does. A text with a surrogate that
stands alone has none, and is told by the byte where it goes wrong. -/
def Value.scalar : Value → Except Nat (Option Lifted)
  | .bool b => .ok (some (.bool b))
  | .number d => .ok (some (.ofNumber d))
  | .bigint n => .ok (some (if Decimal.Fits n then .int (Int64.ofInt n) else .float (.ofInt n)))
  | .string s => s.toString?.map fun text => some (.text text)
  | _ => .ok none

theorem gives_liftBig (standard : m.Standard) (n : Int) :
    Gives m (liftBig mainEngine (.bigint n)).run (Value.bigint n).scalar := by
  refine gives_lifted (gives_narrower 2494 standard n) ?_
  unfold narrowed Value.scalar
  by_cases fits : Decimal.Fits n
  · simp only [if_pos fits]
    refine gives_then (a := toString n) ?_ ?_
    · unfold plainText
      rw [CodeUnits.toString?_ofString]
      exact .pure m _
    · rw [Decimal.integer?_toString, if_pos fits]
      exact .pure m _
  · simp only [if_neg fits]
    exact .pure m _

def Value.isBig : Value → Bool
  | .bigint _ => true
  | _ => false

/-- Only for a big integer a script is run. -/
theorem gives_liftScalar (v : Value) (names : v.isBig = true → m.Standard) :
    Gives m (liftScalar mainEngine v).run v.scalar := by
  cases v with
  | bigint n => exact gives_liftBig (names rfl) n
  | string s =>
    rw [liftScalar, Value.scalar]
    simp only [plainText]
    cases s.toString? <;> exact .pure m _
  | _ => exact .pure m _

theorem liftScalar_none (e : Engine) {v : Value} (other : v.scalar = .ok none) :
    liftScalar e v = pure none := by
  cases v with
  | string s =>
    rw [Value.scalar] at other
    cases text : s.toString? <;> rw [text] at other <;> cases other
  | undefined | null | symbol _ | object _ => rfl
  | _ => cases other

theorem Value.encode?_scalar {v : Value} {x : Lifted} (scalar : v.scalar = .ok (some x)) :
    ∃ a, x.scalar? = some a ∧ x.encode? = some (.scalar a) := by
  cases v with
  | bool b =>
    cases scalar
    exact ⟨_, rfl, rfl⟩
  | number d =>
    simp only [Value.scalar, Lifted.ofNumber, Except.ok.injEq, Option.some.injEq] at scalar
    subst scalar
    split
    · split <;> exact ⟨_, rfl, rfl⟩
    · exact ⟨_, rfl, rfl⟩
  | bigint n =>
    simp only [Value.scalar, Except.ok.injEq, Option.some.injEq] at scalar
    subst scalar
    split <;> exact ⟨_, rfl, rfl⟩
  | string s =>
    rw [Value.scalar] at scalar
    cases text : s.toString? <;> rw [text] at scalar <;> cases scalar
    exact ⟨_, rfl, rfl⟩
  | _ => cases scalar

def liftList (e : Engine) (r : Ref) : LiftRun Lifted := do
  let length ← lengthOf e r
  let items ← (List.range length).mapM fun n => do
    liftItem e (← getProperty e r (.index n))
  return .collection items

theorem lift_other (e : Engine) {v : Value} (other : v.scalar = .ok none) :
    lift e v = (do
      match ← collectionList? e v with
      | none => return .bare (← bareKind v)
      | some r => liftList e r) := by
  rw [lift, liftScalar_none e other, pure_bind]
  rfl

theorem ends_liftList (any : ∀ w, t w) (m : Machine) (e : Engine) (r : Ref) :
    Ends t m (liftList e r).run fun found _ => ∀ y, found = .ok y → y.isCollection = true := by
  rw [liftList, run_lifted]
  refine (Ends.anyhow any m _).bind ?_
  intro length k _
  rw [ExceptT.run_bind]
  refine (Ends.anyhow any k _).bind ?_
  rintro (index | items) l _
  · exact .pure nofun
  · refine .pure ?_
    rintro _ ⟨⟩
    rfl

theorem Machine.isList_there {r : Ref} {o : Obj} {items : Array (Option Property)} {length : Nat}
    {resizable : Bool} (there : m.heap[r]? = some o) (list : o.payload = .list items length resizable) :
    m.isList (.object r) = true := by
  have behind : m.behind chainLimit r = r := by
    rw [chainLimit, Machine.behind, there, Option.getD_some, list]
  rw [Machine.isList, behind, there, Option.getD_some, list]

theorem Machine.Lists.isList {items : List Value} (lists : m.Lists k items v) : k.isList v = true := by
  obtain ⟨r, rfl, _, there⟩ := lists
  exact k.isList_there there rfl

theorem collectionList_list (e : Engine) (list : m.isList v = true) :
    collectionList? e v m = .ok v.ref? m := by
  rw [collectionList?, run_bind (m.isList_run v), list]
  rfl

section

variable (held : m.Holds v)
include held

theorem ends_collectionList (standard : m.Standard) (other : m.isList v = false) {b : Bool}
    (told : m.isSetInstance v = some b) (collection : (b || m.isView v) = true) {P : List Value → Machine → Prop}
    (items : ∀ k, m.Grown k → Ends t k (sourceItems (engine 2495) v) P) :
    Ends t m (collectionList? mainEngine v) fun found l =>
      ∃ items k r, found = some r ∧ P items k ∧ k.Lists l items (.object r) := by
  have isObject : v.isObject = true := by
    cases v with
    | object r => rfl
    | _ =>
      cases told
      cases collection
  refine Ends.after (m.isList_run v) ?_
  simp only [other, Bool.false_eq_true, if_false, isObject, if_true]
  refine (ends_flattener_list 2494 standard held told collection items).bind ?_
  rintro w l ⟨items, k, told, lists⟩
  refine Ends.after (l.isList_run w) ?_
  rw [lists.isList, if_pos rfl]
  obtain ⟨r, rfl, made⟩ := lists
  exact .pure ⟨items, k, r, rfl, told, r, rfl, made⟩

theorem gives_collectionList_none (names : v.isObject = true → m.Standard) (other : m.isList v = false)
    {b : Bool} (told : m.isSetInstance v = some b) (plain : (b || m.isView v) = false) :
    Gives m (collectionList? mainEngine v) none := by
  have tells := gives_isListValue held
  rw [other] at tells
  refine tells.bind ?_
  simp only [Bool.false_eq_true, if_false]
  by_cases isObject : v.isObject = true
  · rw [if_pos isObject]
    refine (gives_flattener_undefined 2494 (names isObject) held told plain).bind ?_
    exact .pure m _
  · rw [if_neg isObject]
    exact .pure m _

end

/-- What becomes of a value: one of its own, an invalid text, a collection of its items, nothing that the wire
could carry, or a fault, where the handler of a proxy throws. -/
inductive Kind
  | scalar (value : Lifted)
  | loneSurrogate (index : Nat)
  | collection
  | bare (kind : Bare)
  | throws (thrown : Value)

def Kind.isBare : Kind → Bool
  | bare _ => true
  | _ => false

def Machine.bareOf (m : Machine) : Value → Bare
  | .undefined => .undefined
  | .null => .null
  | .symbol _ => .symbol
  | .bigint _ => .bigint
  | v => if m.isCallable v then .function else .object

/-- The kind of a value, by the first rule that matches. It goes by what is answered to the question whether the
value is a set, or what is thrown instead. -/
def Machine.kindOf (m : Machine) (v : Value) (answer : Except Value Bool) : Kind :=
  match v.scalar with
  | .error index => .loneSurrogate index
  | .ok (some value) => .scalar value
  | .ok none =>
    if m.isList v then .collection
    else
      match answer with
      | .error thrown => .throws thrown
      | .ok isSet => if isSet || m.isView v then .collection else .bare (m.bareOf v)

/-- What a lift may throw for a value of a kind. What a collection holds is told by code of its own. -/
def Kind.Throws : Kind → Value → Prop
  | collection, _ => True
  | throws thrown, w => w = thrown
  | _, _ => False

def Kind.Tells : Kind → Except Nat Lifted → Prop
  | scalar value, r => r = .ok value
  | loneSurrogate index, r => r = .error index
  | collection, r => ∀ x, r = .ok x → x.isCollection
  | bare kind, r => r = .ok (.bare kind)
  | throws _, _ => False

/-- A run that lifts a value ends as the kind of the value has it. -/
def Kind.Ends (m : Machine) (x : LiftRun Lifted) (kind : Kind) : Prop :=
  Script.Ends kind.Throws m x.run fun r _ => kind.Tells r

/-- The engine at the depth at which the script puts its question. -/
def askingEngine : Engine := engine 2494

/-- What the question whether a value is a set comes to. When it is put, there is more in the machine than there
was, but all that was there is as it was. -/
def Machine.Asked (m : Machine) (v : Value) (answer : Except Value Bool) : Prop :=
  ∃ k, m.Grown k ∧
    match setInstance askingEngine v k with
    | .ok b _ => answer = .ok b
    | .error thrown _ => answer = .error thrown

/-- The question whether a value is a set leaves to the script what it goes on with, whatever code of scripts
is run for it. -/
def Machine.Undisturbed (m : Machine) (v : Value) : Prop :=
  ∀ (k : Machine) (b : Bool) (l : Machine), m.Grown k → setInstance askingEngine v k = .ok b l → m.Left k l v

theorem Machine.asked_exists (m : Machine) (v : Value) : ∃ answer, m.Asked v answer := by
  cases ran : setInstance askingEngine v m with
  | ok b l => exact ⟨.ok b, m, .refl m, by rw [ran]⟩
  | error w l => exact ⟨.error w, m, .refl m, by rw [ran]⟩

/-- Where the question has one answer and lets the machine only grow, that is what it comes to. -/
theorem Machine.Asked.eq {answer : Except Value Bool} (asked : m.Asked v answer) {b : Bool}
    (gives : Gives m (setInstance askingEngine v) b) : answer = .ok b := by
  obtain ⟨k, grown, came⟩ := asked
  obtain ⟨l, ran, -⟩ := gives k grown
  rwa [ran] at came

theorem gives_setInstance (held : m.Holds v) {b : Bool} (told : m.isSetInstance v = some b) (e : Engine) :
    Gives m (setInstance e v) b :=
  .of_run fun _ grown => setInstance_run ((grown.shaped.isSetInstance held).trans told)

theorem Machine.undisturbed (standard : m.Standard) (held : m.Holds v) {b : Bool}
    (gives : Gives m (setInstance askingEngine v) b) : m.Undisturbed v := by
  intro k x l grown ran
  obtain ⟨_, given, later⟩ := gives k grown
  rw [given] at ran
  cases ran
  have left := (grown.trans later).left standard held
  exact { left with scopes := fun _ _ _ there => later.scopes there }

theorem bareKind_run (m : Machine) (v : Value) : bareKind v m = .ok (m.bareOf v) m := by
  cases v with
  | object r =>
    change (isCallable (.object r) >>= fun callable => _) m = _
    rw [run_bind (m.isCallable_run _)]
    rfl
  | _ => rfl

theorem Machine.bareOf_congr (same : k.isCallable v = m.isCallable v) : k.bareOf v = m.bareOf v := by
  cases v with
  | object r =>
    change (if k.isCallable (.object r) then Bare.function else .object) = _
    rw [same]
    rfl
  | _ => rfl

theorem gives_bareKind (held : m.Holds v) : Gives m (bareKind v) (m.bareOf v) :=
  .of_run fun k grown => by rw [bareKind_run, Machine.bareOf_congr (grown.shaped.isCallable held)]

theorem gives_lift_bare (held : m.Holds v) (other : v.scalar = .ok none) (names : v.isObject = true → m.Standard)
    (list : m.isList v = false) {b : Bool} (told : m.isSetInstance v = some b)
    (plain : (b || m.isView v) = false) : Gives m (lift mainEngine v).run (.ok (.bare (m.bareOf v))) := by
  rw [lift_other _ other]
  refine gives_lifted (gives_collectionList_none held names list told plain) ?_
  exact gives_lifted (gives_bareKind held) (.pure m _)

theorem ends_asked (undisturbed : m.Undisturbed v) (grown : m.Grown k) :
    Ends (fun w => m.Asked v (.error w)) k (setInstance askingEngine v) fun b l =>
      m.Left k l v ∧ m.Asked v (.ok b) := by
  unfold Ends
  cases ran : setInstance askingEngine v k with
  | ok b l => exact ⟨undisturbed k b l grown ran, k, grown, by rw [ran]⟩
  | error w l => exact ⟨k, grown, by rw [ran]⟩

theorem Machine.kindOf_unlisted (other : v.scalar = .ok none) (list : m.isList v = false)
    (answer : Except Value Bool) : m.kindOf v answer = match answer with
      | .error thrown => .throws thrown
      | .ok isSet => if isSet || m.isView v then .collection else .bare (m.bareOf v) := by
  simp only [Machine.kindOf, other, list, Bool.false_eq_true, if_false]

theorem ends_lift_list (other : v.scalar = .ok none) (list : m.isList v = true) :
    Kind.collection.Ends m (lift mainEngine v) := by
  unfold Kind.Ends
  rw [lift_other _ other, run_lifted]
  refine Ends.after (collectionList_list mainEngine list) ?_
  cases v with
  | object r => exact ends_liftList (fun _ => trivial) m mainEngine r
  | _ => cases list

theorem lift_kind_plain (other : v.scalar = .ok none) (isObject : v.isObject = false) :
    m.Asked v (.ok false) ∧ (m.kindOf v (.ok false)).Ends m (lift mainEngine v) := by
  have list : m.isList v = false := by cases v <;> first | rfl | cases isObject
  have view : m.isView v = false := by cases v <;> first | rfl | cases isObject
  have told : m.isSetInstance v = some false := by cases v <;> first | rfl | cases isObject
  have held : m.Holds v := by
    rintro r named
    cases v with
    | object r => cases isObject
    | _ => cases named
  have gives := gives_lift_bare held other (by simp [isObject]) list told (by rw [view]; rfl)
  rw [Machine.kindOf_unlisted other list, view]
  exact ⟨⟨m, .refl m, by rw [setInstance_run told]⟩, gives.ends.mono fun _ _ told => told.1⟩

section

variable (standard : m.Standard) (undisturbed : m.Undisturbed v)
include standard undisturbed

/-- A list is found where the value is a collection by the answer to the question, and the value is as callable as
it was where it is none. -/
theorem ends_collectionList_asked (isObject : v.isObject = true) (list : m.isList v = false) {T : Value → Prop}
    (faults : ∀ w, m.Asked v (.error w) → T w)
    (any : ∀ b, m.Asked v (.ok b) → (b || m.isView v) = true → ∀ w, T w) :
    Ends T m (collectionList? mainEngine v) fun found l => ∃ b, m.Asked v (.ok b) ∧
      found.isSome = (b || m.isView v) ∧ ((b || m.isView v) = false → l.isCallable v = m.isCallable v) := by
  refine Ends.after (m.isList_run v) ?_
  rw [list, if_neg Bool.false_ne_true, if_pos isObject]
  refine (ends_flattener (t := T) 2494 standard
    (P := fun b l => m.Asked v (.ok b) ∧ l.Holds v ∧ l.isCallable v = m.isCallable v)
    (Q := fun w l => ∃ b, m.Asked v (.ok b) ∧ bif b || m.isView v then ∃ items k, Machine.Lists k l items w
      else w = .undefined ∧ l.isCallable v = m.isCallable v)
    (fun k grown => ?_) ?_ ?_ ?_).bind ?_
  · refine ((ends_asked undisturbed grown).widen faults).mono ?_
    rintro b l ⟨left, asked⟩
    exact ⟨left, asked, left.held, left.callable⟩
  · rintro w l frames ⟨b, asked, told⟩
    refine ⟨b, asked, ?_⟩
    cases collection : b || m.isView v with
    | false =>
      rw [collection] at told
      exact told
    | true =>
      rw [collection] at told
      obtain ⟨items, k, lists⟩ := told
      exact ⟨items, k, lists.frames frames⟩
  · rintro b j l plain ⟨asked, held, callable⟩ later
    refine ⟨b, asked, ?_⟩
    rw [plain]
    exact ⟨rfl, (later.shaped.isCallable held).trans callable⟩
  · rintro b j l collection ⟨asked, -⟩ -
    refine (Ends.anyhow (any b asked collection) l _).bind fun items k _ => ?_
    refine (ends_listValue k items).mono fun w l lists => ⟨b, asked, ?_⟩
    rw [collection]
    exact ⟨items, k, lists⟩
  · rintro w l ⟨b, asked, told⟩
    cases collection : b || m.isView v with
    | false =>
      rw [collection] at told
      obtain ⟨rfl, callable⟩ := told
      exact .pure ⟨b, asked, collection.symm, fun _ => callable⟩
    | true =>
      rw [collection] at told
      obtain ⟨items, k, lists⟩ := told
      refine Ends.after (l.isList_run w) ?_
      rw [lists.isList]
      obtain ⟨r, rfl, -⟩ := lists
      refine .pure ⟨b, asked, collection.symm, fun plain => ?_⟩
      rw [collection] at plain
      cases plain

/-- An object that is no list becomes what the answer to the question has it become. -/
theorem ends_lift_object (other : v.scalar = .ok none) (isObject : v.isObject = true)
    (list : m.isList v = false) :
    Ends (fun w => ∃ answer, m.Asked v answer ∧ (m.kindOf v answer).Throws w) m (lift mainEngine v).run
      fun r _ => ∃ answer, m.Asked v answer ∧ (m.kindOf v answer).Tells r := by
  have kind := Machine.kindOf_unlisted other list
  have any (b : Bool) (asked : m.Asked v (.ok b)) (collection : (b || m.isView v) = true) (w : Value) :
      ∃ answer, m.Asked v answer ∧ (m.kindOf v answer).Throws w :=
    ⟨.ok b, asked, by simp only [kind, collection, if_true, Kind.Throws]⟩
  rw [lift_other _ other, run_lifted]
  refine (ends_collectionList_asked standard undisturbed isObject list ?_ any).bind ?_
  · exact fun w asked => ⟨.error w, asked, by rw [kind]; rfl⟩
  · rintro found l ⟨b, asked, is, callable⟩
    cases found with
    | some r =>
      refine (ends_liftList (any b asked is.symm) l mainEngine r).mono fun found _ told => ?_
      exact ⟨.ok b, asked, by simp only [kind, ← is, Option.isSome_some, if_true, Kind.Tells]; exact told⟩
    | none =>
      rw [run_lifted]
      refine Ends.after (bareKind_run l v) (.pure ⟨.ok b, asked, ?_⟩)
      rw [Machine.bareOf_congr (callable is.symm)]
      simp only [kind, ← is, Option.isSome_none, Bool.false_eq_true, if_false, Kind.Tells]

/-- A value is lifted as its kind has it. -/
theorem lift_kind : ∃ answer, m.Asked v answer ∧ (m.kindOf v answer).Ends m (lift mainEngine v) := by
  have scalar := gives_liftScalar v fun _ => standard
  obtain ⟨answer, asked⟩ := m.asked_exists v
  cases value : v.scalar with
  | error index =>
    rw [value] at scalar
    have gives : Gives m (lift mainEngine v).run (.error index) := gives_stop scalar
    refine ⟨answer, asked, ?_⟩
    simp only [Machine.kindOf, value]
    exact gives.ends.mono fun _ _ told => told.1
  | ok found =>
    rw [value] at scalar
    cases found with
    | some x =>
      have gives : Gives m (lift mainEngine v).run (.ok x) := gives_then scalar (.pure m _)
      refine ⟨answer, asked, ?_⟩
      simp only [Machine.kindOf, value]
      exact gives.ends.mono fun _ _ told => told.1
    | none =>
      cases list : m.isList v with
      | true =>
        refine ⟨answer, asked, ?_⟩
        simp only [Machine.kindOf, value, list, if_true]
        exact ends_lift_list value list
      | false =>
        cases isObject : v.isObject with
        | true => exact (ends_lift_object standard undisturbed value isObject list).choose
        | false => exact ⟨_, lift_kind_plain value isObject⟩

end

end Patchbay.Script
