import Patchbay.Proofs.Script.Standard

/-!
The script that turns sets and typed arrays into lists, and answers nothing for other values. It asks first
whether the value is a set. Where proxies stand on the way to the answer, code of scripts may give it; what the
script does then is told by the answer, as long as that code leaves to the script what it goes on with.
-/
namespace Patchbay.Script

open Text

variable {t : Value → Prop} {m k : Machine} {e : Engine} {v w : Value}

/-- Whether a value is a set, as the script asks it: whether the prototype of sets stands above it. The handlers
of proxies are asked on the way. -/
def setInstance (e : Engine) : Value → Run Bool
  | .object r => inheritsFrom e Proto.set.ref chainLimit r
  | _ => return false

theorem setInstance_run {b : Bool} (told : m.isSetInstance v = some b) : setInstance e v m = .ok b m := by
  cases v with
  | object r => exact Machine.inherits_run e told
  | _ =>
    cases told
    rfl

theorem Machine.Standard.maker (standard : m.Standard) :
    ∃ s test, m.property? Proto.global.ref (.named "Set") = some (.object s) ∧
      m.native? (.object s) = some (.set .make) ∧
      m.property? s (.named "prototype") = some (.object Proto.set.ref) ∧
      m.property? s (.symbol symbolHasInstance) = some (.object test) ∧
      m.native? (.object test) = some (.function .hasInstance) := by
  obtain ⟨s, set, maker⟩ := standard.function (.named "Set") (.set .make) (by decide)
  obtain ⟨_, _, ⟨⟩, found, proto⟩ := Machine.follow?_two standard.sets
  rw [set] at found
  cases found
  obtain ⟨_, test, found, method, native⟩ :=
    standard.method (.named "Set") (.symbol symbolHasInstance) (.function .hasInstance) (by decide)
  rw [set] at found
  cases found
  exact ⟨s, test, set, maker, proto, method, native⟩

section

variable (d : Nat) (standard : m.Standard) {P : Bool → Machine → Prop}

theorem ends_ordinaryInstance {s : Ref} {f : Native} (function : m.native? (.object s) = some f)
    (found : m.property? s (.named "prototype") = some (.object Proto.set.ref))
    (asks : ∀ k, m.Grown k → Ends t k (setInstance e v) P) :
    Ends t m (ordinaryInstance e v (.object s)) P := by
  obtain ⟨_, o, ⟨⟩, there, native⟩ := Machine.native?_eq_some.mp function
  refine (gives_isCallable_native function).then_ends fun k grown => ?_
  refine (gives_object (grown.heap there)).then_ends fun l later => ?_
  have grown := grown.trans later
  rw [native]
  cases v with
  | object r =>
    refine (gives_getProperty e rfl (grown.property? rfl found)).then_ends fun j last => ?_
    exact asks j (grown.trans last)
  | _ => exact asks l grown

include standard

theorem ends_instanceOf {s : Ref} (set : m.property? Proto.global.ref (.named "Set") = some (.object s))
    (asks : ∀ k, m.Grown k → Ends t k (setInstance (engine d) v) P) :
    Ends t m (instanceOf (engine (d + 1)) v (.object s)) fun b l => ∃ j, P b j ∧ j.Grown l := by
  obtain ⟨_, test, found, maker, proto, method, native⟩ := standard.maker
  rw [found] at set
  cases set
  refine (gives_method rfl method native).then_ends fun k grown => ?_
  refine (ends_callNative (Q := fun w l => ∃ b j, w = .bool b ∧ P b j ∧ j.Grown l) (grown.native? native)
    nofun ?_ ?_).bind ?_
  · rintro w l frames ⟨b, j, rfl, answered, later⟩
    exact ⟨b, j, rfl, answered, later.frames frames⟩
  · intro l later
    have grown := grown.trans later
    change Ends t l (isCallable (.object _) >>= fun b => _) _
    refine (gives_isCallable_native (grown.native? maker)).then_ends fun j last => ?_
    have grown := grown.trans last
    refine (ends_ordinaryInstance (grown.native? maker) (grown.property? rfl proto)
      fun i final => asks i (grown.trans final)).bind ?_
    intro b i answered
    exact .pure ⟨b, i, rfl, answered, .refl i⟩
  · rintro _ l ⟨b, j, rfl, answered, later⟩
    exact .pure ⟨j, answered, later⟩

end

/-- What has been left to the script behind its question: the names by which it goes on, the scopes that have
come since, and the value as it was. -/
structure Machine.Left (m k l : Machine) (v : Value) : Prop where
  standard : l.Standard
  scopes : ∀ (i : Nat) (s : Scope), m.scopes[i]? = none → k.scopes[i]? = some s → l.scopes[i]? = some s
  held : l.Holds v
  view : l.isView v = m.isView v
  callable : l.isCallable v = m.isCallable v

theorem Machine.Grown.left (grown : m.Grown k) (standard : m.Standard) (held : m.Holds v) :
    m.Left k k v where
  standard := standard.of_grown grown
  scopes _ _ _ there := there
  held := grown.shaped.holds held
  view := grown.shaped.isView held
  callable := grown.shaped.isCallable held

section

variable (d : Nat) (standard : m.Standard) {P : Bool → Machine → Prop}
  (asks : ∀ k, m.Grown k → Ends t k (setInstance (engine d) v) fun b l => m.Left k l v ∧ P b l)
include standard asks

theorem ends_flattens (grown : m.Grown k) {i : Nat} (fresh : m.scopes[i]? = none)
    (call : k.InCall i (.ofString "v") v) :
    Ends t k (evaluate (engine (d + 2)) ⟨i, true, false⟩
      (.logical .or
        (.binary .instanceOf (.name (.ofString "v") ⟨1, 8⟩) (.name (.ofString "Set") ⟨1, 21⟩))
        (.call (.member (.name (.ofString "ArrayBuffer") ⟨1, 28⟩) (.ofString "isView") ⟨1, 28⟩)
          [.name (.ofString "v") ⟨1, 47⟩] ⟨1, 28⟩)))
      fun w l => ∃ b, w = .bool b ∧ ∃ x j, b = (x || m.isView v) ∧ P x j ∧ j.Grown l ∧ l.Standard ∧
        l.InCall i (.ofString "v") v := by
  obtain ⟨s, _, set, _⟩ := standard.maker
  refine ends_or (L := fun x l => ∃ j, (l.isView v = m.isView v ∧ l.Holds v ∧ P x j) ∧ j.Grown l ∧ l.Standard ∧
    l.InCall i (.ofString "v") v) ?_ ?_ ?_
  · rw [engine_evaluate]
    apply ends_binary (x := v) (y := .object s)
    · exact gives_param call _
    · exact gives_global call (grown.unhidden standard.unhidden) "Set" (by decide) (by decide) rfl
        (grown.property? rfl set) _
    · intro l later
      have grown := grown.trans later
      have call := later.scopes call
      refine (ends_instanceOf d (standard.of_grown grown) (grown.property? rfl set)
        (P := fun x j => m.Left j j v ∧ P x j ∧ j.InCall i (.ofString "v") v) fun i' last => ?_).bind ?_
      · refine (asks i' (grown.trans last)).mono ?_
        rintro x j ⟨left, answered⟩
        exact ⟨⟨left.standard, fun _ _ _ there => there, left.held, left.view, left.callable⟩, answered,
          left.scopes i _ fresh (last.scopes call)⟩
      · rintro x j ⟨j', ⟨left, answered, call⟩, last⟩
        have same := last.shaped.isView left.held
        exact .pure ⟨x, rfl, j', ⟨same.trans left.view, last.shaped.holds left.held, answered⟩, last,
          left.standard.of_grown last, last.scopes call⟩
  · rintro l ⟨j, ⟨-, -, answered⟩, later, standard, call⟩
    exact ⟨true, rfl, true, j, rfl, answered, later, standard, call⟩
  · rintro l ⟨j, ⟨view, held, answered⟩, later, standard, call⟩
    obtain ⟨o, f, holder, method, native⟩ := standard.method (.named "ArrayBuffer")
      (.named "isView") (.buffer .isView) (by decide)
    have tells : Gives l ((engine (d + 2)).evaluate ⟨i, true, false⟩
        (.call (.member (.name (.ofString "ArrayBuffer") ⟨1, 28⟩) (.ofString "isView") ⟨1, 28⟩)
          [.name (.ofString "v") ⟨1, 47⟩] ⟨1, 28⟩)) (.bool (m.isView v)) := by
      rw [engine_evaluate, evaluate_method]
      refine Gives.bind (gives_evaluateMethod call standard.unhidden "ArrayBuffer" "isView" (by decide)
        (by decide) rfl rfl holder method (gives_argument (v := v) (gives_param call _)) _ _ _) ?_
      refine gives_callNative native nofun ?_
      exact view ▸ (gives_isViewValue held).bind (.pure l _)
    refine tells.ends.mono ?_
    rintro _ i' ⟨rfl, last⟩
    exact ⟨_, rfl, false, j, rfl, answered, later.trans last, standard.of_grown last, last.scopes call⟩

/-- What the script makes of a value, by what its question was answered. -/
theorem ends_flattener {Q : Value → Machine → Prop}
    (framed : ∀ w k frames, Q w k → Q w { k with frames := frames })
    (plain : ∀ x j l, (x || m.isView v) = false → P x j → j.Grown l → Q .undefined l)
    (collection : ∀ x j l, (x || m.isView v) = true → P x j → j.Grown l →
      Ends t l (sourceItems (engine (d + 1)) v >>= listValue) Q) :
    Ends t m (applyScript (engine (d + 6)) flattener v) Q := by
  refine ends_applyScript flattener_read framed ?_
  intro k i grown fresh call
  refine ends_conditional (ends_flattens d standard asks grown fresh call) ?_
  rintro b l ⟨x, j, rfl, answered, later, standard, call⟩
  rw [engine_evaluate]
  cases collects : x || m.isView v with
  | false =>
    have undefined : l.property? Proto.global.ref (.named "undefined") = some .undefined := by
      obtain ⟨_, found, ⟨⟩⟩ := Option.bind_eq_some_iff.mp standard.undefined
      exact found
    refine (gives_global call standard.unhidden "undefined" (by decide) (by decide) rfl undefined _).ends.mono ?_
    rintro _ i' ⟨rfl, last⟩
    exact plain x j i' collects answered (later.trans last)
  | true =>
    obtain ⟨o, f, holder, method, native⟩ := standard.method (.named "Array") (.named "from")
      (.list .from_) (by decide)
    rw [if_pos rfl, evaluate_method]
    refine Gives.then_ends (gives_evaluateMethod call standard.unhidden "Array" "from"
      (by decide) (by decide) rfl rfl holder method (gives_argument (v := v) (gives_param call _)) _ _ _) ?_
    intro i' last
    refine ends_callNative (last.native? native) nofun framed fun l' final => ?_
    change Ends t l' (sourceItems (engine (d + 1)) v >>= fun items => listValue items) _
    exact collection x j l' collects answered ((later.trans last).trans final)

end

def listOf (items : List Value) : Obj where
  proto := some Proto.list.ref
  payload :=
    let all := (items.map fun v => some (Property.plain v)).toArray
    .list all all.size true

/-- The value is a list with these items, made after the machine. -/
def Machine.Lists (m k : Machine) (items : List Value) (w : Value) : Prop :=
  ∃ r, w = .object r ∧ m.Grown k ∧ k.heap[r]? = some (listOf items)

theorem Machine.Lists.frames {items : List Value} (lists : m.Lists k items w) (frames : List Frame) :
    m.Lists { k with frames := frames } items w := by
  obtain ⟨r, value, grown, there⟩ := lists
  exact ⟨r, value, grown.frames frames, there⟩

theorem ends_listValue (m : Machine) (items : List Value) :
    Ends t m (listValue items) fun w k => m.Lists k items w := by
  unfold listValue newList
  refine (ends_newObject m _ _).bind ?_
  rintro r k ⟨grown, _, there⟩
  exact .pure ⟨r, rfl, grown, there⟩

section

variable (d : Nat) (standard : m.Standard) (held : m.Holds v) {b : Bool} (told : m.isSetInstance v = some b)
include standard held told

theorem ends_setInstance (grown : m.Grown k) :
    Ends t k (setInstance (engine d) v) fun x l => m.Left k l v ∧ x = b ∧ k = l :=
  .of_ok (setInstance_run ((grown.shaped.isSetInstance held).trans told)) ⟨grown.left standard held, rfl, rfl⟩

theorem gives_flattener_undefined (plain : (b || m.isView v) = false) :
    Gives m (applyScript (engine (d + 6)) flattener v) .undefined := by
  refine .of_ends fun k grown => ?_
  have view := grown.shaped.isView held
  refine ends_flattener d (standard.of_grown grown) (P := fun x l => x = b ∧ k.Grown l) (fun l later => ?_) ?_ ?_ ?_
  · have told := (grown.shaped.isSetInstance held).trans told
    refine (ends_setInstance d (standard.of_grown grown) (grown.shaped.holds held) told later).mono ?_
    rintro _ _ ⟨left, rfl, rfl⟩
    exact ⟨left, rfl, later⟩
  · rintro _ l frames ⟨rfl, later⟩
    exact ⟨rfl, later.frames frames⟩
  · rintro _ j l - ⟨rfl, later⟩ last
    exact ⟨rfl, later.trans last⟩
  · rintro _ j l collection ⟨rfl, -⟩
    rw [view, plain] at collection
    cases collection

theorem ends_flattener_list (collection : (b || m.isView v) = true) {P : List Value → Machine → Prop}
    (items : ∀ k, m.Grown k → Ends t k (sourceItems (engine (d + 1)) v) P) :
    Ends t m (applyScript (engine (d + 6)) flattener v) fun w l =>
      ∃ items k, P items k ∧ k.Lists l items w := by
  refine ends_flattener d standard (P := fun x l => x = b ∧ m.Grown l) (fun k grown => ?_) ?_ ?_ ?_
  · refine (ends_setInstance d standard held told grown).mono ?_
    rintro _ _ ⟨left, rfl, rfl⟩
    exact ⟨left, rfl, grown⟩
  · rintro w l frames ⟨items, k, told, lists⟩
    exact ⟨items, k, told, lists.frames frames⟩
  · rintro _ j l plain ⟨rfl, -⟩
    rw [collection] at plain
    cases plain
  · rintro _ j l - ⟨-, grown⟩ later
    refine (items l (grown.trans later)).bind fun items k told => ?_
    exact (ends_listValue k items).mono fun w l lists => ⟨items, k, told, lists⟩

end

end Patchbay.Script
