import Patchbay.Proofs.Script.Assign
import Patchbay.Proofs.Script.Items
import Patchbay.Proofs.Script.Lift
import Mathlib.Data.List.Forall2

/-!
Lifts in namespaces that call things by other names. Most values are lifted without a script, and no name
can matter to them. A big integer, and an object that is no list, are handed to a script, which goes by the
names that it finds; so they come out the same only where these names still mean what they did. Values whose
reading runs code of scripts are left aside, since that code may well ask for a name.
-/
namespace Patchbay.Script

variable {m k : Machine} {v : Value} {r : Ref}

def Machine.itemOf (m : Machine) (v : Value) : Except Nat Lifted :=
  match v.scalar with
  | .error index => .error index
  | .ok (some x) => .ok x
  | .ok none => .ok (if m.isList v then .collection [] else .bare (m.bareOf v))

/-- What the items become together; the first that is no text of its own stops them. -/
def Machine.gathered (m : Machine) (vs : List Value) : Except Nat Lifted :=
  (vs.mapM m.itemOf).map .collection

theorem gives_liftItem (held : m.Holds v) (names : v.isBig = true → m.Standard) :
    Gives m (liftItem mainEngine v).run (m.itemOf v) := by
  have lifted := gives_liftScalar v names
  unfold Machine.itemOf
  cases scalar : v.scalar with
  | error index =>
    rw [scalar] at lifted
    exact gives_stop lifted
  | ok found =>
    rw [scalar] at lifted
    cases found with
    | some x => exact gives_then lifted (.pure m _)
    | none =>
      rw [liftItem, liftScalar_none _ scalar, pure_bind]
      refine gives_lifted (gives_isListValue held) ?_
      cases m.isList v with
      | true => exact .pure m _
      | false => exact gives_lifted (gives_bareKind held) (.pure m _)

theorem gives_items {ns : List Nat} {vs : List Value}
    (reads : List.Forall₂ (fun n w => Gives m (getProperty mainEngine r (.index n)) w) ns vs)
    (held : ∀ w ∈ vs, m.Holds w) (names : vs.any Value.isBig = true → m.Standard) :
    Gives m (ns.mapM fun n => do liftItem mainEngine (← getProperty mainEngine r (.index n)) :
      LiftRun (List Lifted)).run (vs.mapM m.itemOf) := by
  induction reads with
  | nil => exact .pure m _
  | @cons n w ns vs read _ ih =>
    simp only [List.any_cons, Bool.or_eq_true, List.forall_mem_cons] at held names
    have item := gives_liftItem held.1 fun big => names (.inl big)
    have rest := ih held.2 fun big => names (.inr big)
    rw [List.mapM_cons, List.mapM_cons, bind_assoc]
    refine gives_lifted read ?_
    cases first : m.itemOf w with
    | error index =>
      rw [first] at item
      exact gives_stop item
    | ok x =>
      rw [first] at item
      refine gives_then item ?_
      cases others : vs.mapM m.itemOf with
      | error index =>
        rw [others] at rest
        exact gives_stop rest
      | ok xs =>
        rw [others] at rest
        exact gives_then rest (.pure m _)

theorem gives_liftList {vs : List Value} (length : Gives m (lengthOf mainEngine r) vs.length)
    (reads : List.Forall₂ (fun n w => Gives m (getProperty mainEngine r (.index n)) w)
      (List.range vs.length) vs)
    (held : ∀ w ∈ vs, m.Holds w) (names : vs.any Value.isBig = true → m.Standard) :
    Gives m (liftList mainEngine r).run (m.gathered vs) := by
  have items := gives_items reads held names
  rw [liftList]
  refine gives_lifted length ?_
  unfold Machine.gathered
  cases gathered : vs.mapM m.itemOf with
  | error index =>
    rw [gathered] at items
    exact gives_stop items
  | ok xs =>
    rw [gathered] at items
    exact gives_then items (.pure m _)

/-- A value is found under an index, on the object or along its prototypes, and no getter or proxy is asked. -/
def Machine.Offers (m : Machine) (r : Ref) (n : Nat) (w : Value) : Prop :=
  ∃ found, m.Seeks (.index n) found chainLimit r ∧ told? found = some w

/-- What a lift makes of a value if no code of scripts is run for it, and whether one of the scripts of the
lift is. -/
inductive Machine.Lifts (m : Machine) : Value → Bool → Except Nat Lifted → Prop
  | scalar {v : Value} {x : Lifted} (own : v.scalar = .ok (some x)) : Lifts m v v.isBig (.ok x)
  | loneSurrogate {v : Value} {index : Nat} (own : v.scalar = .error index) : Lifts m v false (.error index)
  | bare {v : Value} (other : v.scalar = .ok none) (list : m.isList v = false)
      {b : Bool} (told : m.isSetInstance v = some b) (plain : (b || m.isView v) = false) :
      Lifts m v v.isObject (.ok (.bare (m.bareOf v)))
  | list {r : Ref} {o : Obj} {items : Array (Option Property)} {length : Nat} {resizable : Bool}
      {vs : List Value} (there : m.heap[r]? = some o) (list : o.payload = .list items length resizable)
      (told : List.Forall₂ (m.Offers r) (List.range length) vs) (held : ∀ w ∈ vs, m.Holds w) :
      Lifts m (.object r) (vs.any Value.isBig) (m.gathered vs)
  | iterated {r : Ref} {vs : List Value} {b : Bool} (told : m.isSetInstance (.object r) = some b)
      (collection : (b || m.isView (.object r)) = true) (contents : m.contents? r = some vs) (regular : m.Regular r) (enough : vs.length < loopLimit)
      (room : m.HasRoom vs.length) (held : ∀ w ∈ vs, m.Holds w) :
      Lifts m (.object r) true (m.gathered vs)

theorem listOf_payload (vs : List Value) :
    (listOf vs).payload = .list (vs.map fun v => some (Property.plain v)).toArray vs.length true := by
  simp [listOf]

theorem offers_listOf {vs : List Value} (there : m.heap[r]? = some (listOf vs)) :
    List.Forall₂ (m.Offers r) (List.range vs.length) vs := by
  rw [List.forall₂_iff_get]
  refine ⟨List.length_range, fun n _ inside => ⟨some (.plain vs[n]), ?_, rfl⟩⟩
  rw [chainLimit_succ]
  refine .own there rfl ?_ rfl
  rw [Machine.ownProperty?, there]
  simp [listOf, inside]

theorem Machine.Offers.gives {n : Nat} {w : Value} (offers : m.Offers r n w) (e : Engine) :
    Gives m (getProperty e r (.index n)) w := by
  obtain ⟨found, seeks, told⟩ := offers
  exact gives_getFrom_told e seeks told _

theorem gives_lengthOf {o : Obj} {items : Array (Option Property)} {length : Nat} {resizable : Bool}
    (there : m.heap[r]? = some o) (list : o.payload = .list items length resizable) (e : Engine) :
    Gives m (lengthOf e r) length := by
  refine (gives_object there).bind ?_
  rw [list]
  exact .pure m _

theorem gives_liftList_there {o : Obj} {items : Array (Option Property)} {length : Nat} {resizable : Bool}
    {vs : List Value} (there : m.heap[r]? = some o) (list : o.payload = .list items length resizable)
    (told : List.Forall₂ (m.Offers r) (List.range length) vs) (held : ∀ w ∈ vs, m.Holds w)
    (names : vs.any Value.isBig = true → m.Standard) :
    Gives m (liftList mainEngine r).run (m.gathered vs) := by
  have size : length = vs.length := by simpa using told.length_eq
  subst size
  exact gives_liftList (gives_lengthOf there list _) (told.imp fun n w offers => offers.gives _) held names

theorem itemOf_shaped (shaped : m.Shaped k) (held : m.Holds v) : k.itemOf v = m.itemOf v := by
  simp only [Machine.itemOf, shaped.isList held, Machine.bareOf_congr (shaped.isCallable held)]

theorem gathered_shaped (shaped : m.Shaped k) {vs : List Value} (held : ∀ w ∈ vs, m.Holds w) :
    k.gathered vs = m.gathered vs := by
  have same : vs.mapM k.itemOf = vs.mapM m.itemOf := by
    induction vs with
    | nil => rw [List.mapM_nil, List.mapM_nil]
    | cons w vs ih =>
      obtain ⟨first, rest⟩ := List.forall_mem_cons.mp held
      rw [List.mapM_cons, List.mapM_cons, itemOf_shaped shaped first, ih rest]
  rw [Machine.gathered, Machine.gathered, same]

theorem Machine.Lifts.ends {helped : Bool} {found : Except Nat Lifted} (lifts : m.Lifts v helped found)
    (held : m.Holds v) (names : helped = true → m.Standard) :
    Ends Never m (lift mainEngine v).run fun told _ => told = found := by
  cases lifts with
  | scalar own =>
    have lifted := gives_liftScalar v names
    rw [own] at lifted
    exact (gives_then lifted (.pure m _)).ends.mono fun _ _ told => told.1
  | @loneSurrogate _ index own =>
    have lifted := gives_liftScalar (m := m) v fun big => by cases v <;> first | cases own | cases big
    rw [own] at lifted
    have gives : Gives m (lift mainEngine v).run (.error index) := gives_stop lifted
    exact gives.ends.mono fun _ _ told => told.1
  | bare other list told plain =>
    exact (gives_lift_bare held other names list told plain).ends.mono fun _ _ told => told.1
  | list there list told inside =>
    rw [lift_other _ rfl, run_lifted]
    refine Ends.after (collectionList_list mainEngine (m.isList_there there list)) ?_
    exact (gives_liftList_there there list told inside names).ends.mono fun _ _ told => told.1
  | @iterated r vs b told collection contents regular enough room inside =>
    rw [lift_other _ rfl, run_lifted]
    refine (ends_collectionList held (names rfl) (not_list contents) told collection fun k grown =>
      ends_contents contents regular enough room grown).bind ?_
    -- The list that the script makes of the items is read like any other.
    rintro _ l ⟨items, k, s, rfl, ⟨rfl, grown⟩, lists⟩
    obtain ⟨_, ⟨⟩, later, there⟩ := lists
    have grown := grown.trans later
    have told := gives_liftList_there there (listOf_payload items) (offers_listOf there)
      (fun w member => grown.shaped.holds (inside w member)) fun _ => (names rfl).of_grown grown
    refine told.ends.mono ?_
    rintro _ j ⟨rfl, -⟩
    exact gathered_shaped grown.shaped inside

def Key.isText : Key → Bool
  | .text _ => true
  | _ => false

/-- Where the language has its names: on the global object, and on the built-in functions behind the
prototypes, as `from` on that of `Array`. -/
def Obj.BearsNames (o : Obj) (r : Ref) : Prop :=
  r = Proto.global.ref ∨ Proto.all.length ≤ r ∧ ∃ f, o.payload = .native f

/-- A machine in which the names of the language may mean something else. All objects are there, as they
were but for the names on those that bear them; there may be any other objects, and any scopes with any
variables of scripts in them. -/
structure Machine.Renamed (m k : Machine) : Prop where
  objects : ∀ (r : Ref) (o : Obj), m.heap[r]? = some o →
    ∃ p, k.heap[r]? = some p ∧ p.proto = o.proto ∧ p.payload = o.payload ∧
      ∀ key, (key.isText = true → ¬ o.BearsNames r) → p.lookup? key = o.lookup? key
  limit : k.memoryLimit = m.memoryLimit

namespace Machine.Renamed

theorem refl (m : Machine) : m.Renamed m := ⟨fun _ o there => ⟨o, there, rfl, rfl, fun _ _ => rfl⟩, rfl⟩

variable (renamed : m.Renamed k)
include renamed

theorem shaped : m.Shaped k := by
  intro r o there
  obtain ⟨p, here, proto, payload, -⟩ := renamed.objects r o there
  exact ⟨p, here, proto, payload⟩

theorem seeks {n fuel : Nat} {found : Option Property} (seeks : m.Seeks (.index n) found fuel r) :
    k.Seeks (.index n) found fuel r := by
  have step {r : Ref} {o : Obj} (there : m.heap[r]? = some o) (plain : o.payload.isExotic (.index n) = false) :
      ∃ p, k.heap[r]? = some p ∧ p.proto = o.proto ∧ p.payload.isExotic (.index n) = false ∧
        k.ownProperty? r (.index n) = m.ownProperty? r (.index n) := by
    obtain ⟨p, here, proto, payload, kept⟩ := renamed.objects r o there
    exact ⟨p, here, proto, payload ▸ plain,
      Machine.ownProperty?_congr there here payload (kept _ nofun) (Payload.not_typed plain)⟩
  induction seeks with
  | own there plain has is =>
    obtain ⟨p, here, -, plain, same⟩ := step there plain
    exact .own here plain (same.trans has) is
  | above there plain lacks proto _ ih =>
    obtain ⟨p, here, above, plain, same⟩ := step there plain
    exact .above here plain (same.trans lacks) (above.trans proto) ih
  | top there plain lacks proto is =>
    obtain ⟨p, here, above, plain, same⟩ := step there plain
    exact .top here plain (same.trans lacks) (above.trans proto) is

theorem offers {n : Nat} {w : Value} (offers : m.Offers r n w) : k.Offers r n w := by
  obtain ⟨found, seeks, told⟩ := offers
  exact ⟨found, renamed.seeks seeks, told⟩

theorem keeps {key : Key} (textless : key.isText = false) : m.Keeps k key := by
  intro r o there
  obtain ⟨p, here, proto, payload, kept⟩ := renamed.objects r o there
  exact ⟨p, here, proto, payload, kept key fun text => nomatch textless.symm.trans text⟩

theorem prototype {p : Proto} (other : p ≠ .global) {key : Key} (name : key.isName = true)
    (found : m.value? key 1 p.ref = some v) : k.value? key 1 p.ref = some v := by
  obtain ⟨w, enumerable, configurable, found⟩ := Machine.value?_eq_some.mp found
  refine Machine.value?_eq_some.mpr ⟨w, enumerable, configurable, ?_⟩
  cases found with
  | @own fuel r o there has =>
    obtain ⟨o', here, -, payload, kept⟩ := renamed.objects p.ref o there
    have nameless : ¬ o.BearsNames p.ref := by
      rintro (same | ⟨behind, -⟩)
      · cases p <;> first | exact other rfl | cases same
      · cases p <;> exact absurd behind (by decide)
    have same := Machine.ownProperty?_congr there here payload (kept key fun _ => nameless) (.inl name)
    exact .own here (same.trans has)
  | above _ _ _ _ rest => cases rest

theorem iterates {f : Native} {p : Proto} (other : p ≠ .global) (iterates : m.Iterates r f p) :
    k.Iterates r f p := by
  obtain ⟨own, next⟩ := iterates
  obtain ⟨s, found, native⟩ := Option.bind_eq_some_iff.mp own
  obtain ⟨w, found', native'⟩ := Option.bind_eq_some_iff.mp next
  exact ⟨Option.bind_eq_some_iff.mpr ⟨s, (renamed.keeps rfl).property? rfl found, renamed.shaped.native? native⟩,
    Option.bind_eq_some_iff.mpr ⟨w, renamed.prototype other rfl found', renamed.shaped.native? native'⟩⟩

theorem regular (inside : r < m.heap.size) (regular : m.Regular r) : k.Regular r := by
  obtain ⟨i, iteration, iterates⟩ := regular
  refine ⟨i, (renamed.shaped.object inside).2 ▸ iteration, renamed.iterates ?_ iterates⟩
  unfold Payload.iteration? at iteration
  split at iteration <;> cases iteration <;> nofun

theorem contents? (inside : r < m.heap.size) {vs : List Value} (contents : m.contents? r = some vs) :
    k.contents? r = some vs := by
  unfold Machine.contents? at contents ⊢
  rw [(renamed.shaped.object inside).2]
  split at contents
  · exact contents
  · rename_i e buffer offset length typed
    by_cases behind : buffer < m.heap.size
    · rw [(renamed.shaped.object behind).2]
      exact contents
    · rw [Array.getElem?_eq_none (Nat.le_of_not_lt behind)] at contents
      cases contents
  · cases contents

/-- What a lift makes of a value it makes of it under other names. -/
theorem lifts {helped : Bool} {found : Except Nat Lifted} (held : m.Holds v) (lifts : m.Lifts v helped found) :
    k.Lifts v helped found := by
  have shaped := renamed.shaped
  cases lifts with
  | scalar own => exact .scalar own
  | loneSurrogate own => exact .loneSurrogate own
  | bare other list told plain =>
    rw [← Machine.bareOf_congr (shaped.isCallable held)]
    refine .bare other ((shaped.isList held).trans list) ((shaped.isSetInstance held).trans told) ?_
    rw [shaped.isView held, plain]
  | list there list told inside =>
    obtain ⟨p, here, -, payload⟩ := shaped _ _ there
    rw [← gathered_shaped shaped inside]
    exact .list here (payload.trans list) (told.imp fun n w offers => renamed.offers offers)
      fun w member => shaped.holds (inside w member)
  | iterated told collection contents regular enough room inside =>
    have there := (held _ rfl).inside
    rw [← gathered_shaped shaped inside]
    refine .iterated ((shaped.isSetInstance held).trans told) ?_ (renamed.contents? there contents) (renamed.regular there regular) enough ?_
      fun w member => shaped.holds (inside w member)
    · rw [shaped.isView held, collection]
    · intro limit limited
      rw [renamed.limit] at limited
      exact room limit limited

end Machine.Renamed

theorem keeps_withProperty {key other : Key} (apart : other ≠ key) (p : Property) :
    m.Keeps (m.withProperty r key p) other := by
  intro s o there
  rw [Machine.withProperty, Array.getElem?_modify, there]
  split
  · exact ⟨_, rfl, o.proto_insert .., o.payload_insert .., o.lookup?_insert_of_ne apart p⟩
  · exact ⟨o, rfl, rfl, rfl, rfl⟩

theorem renamed_withProperty (m : Machine) {key : Key} (text : key.isText = true) (p : Property) :
    m.Renamed (m.withProperty Proto.global.ref key p) := by
  refine ⟨fun r o there => ?_, rfl⟩
  rw [Machine.withProperty, Array.getElem?_modify, there]
  split
  · subst r
    refine ⟨_, rfl, o.proto_insert .., o.payload_insert .., fun other nameless => ?_⟩
    refine o.lookup?_insert_of_ne ?_ p
    rintro rfl
    exact nameless text (.inl rfl)
  · exact ⟨o, rfl, rfl, rfl, fun _ _ => rfl⟩

theorem Machine.Standard.withProperty (standard : m.Standard) {key : Key} (unlisted : key ∉ liftKeys)
    (p : Property) : (m.withProperty r key p).Standard := by
  refine standard.of_keeps standard.unhidden fun other listed => keeps_withProperty ?_ p
  rintro rfl
  exact unlisted listed

end Patchbay.Script
