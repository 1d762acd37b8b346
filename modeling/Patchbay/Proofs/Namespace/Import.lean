import Patchbay.Proofs.Namespace.Evaluate
import Patchbay.Proofs.Script.Enclosed
import Patchbay.Proofs.Script.Realm
import Patchbay.Proofs.Script.Standard
import Patchbay.Proofs.Script.Telling
import Patchbay.Proofs.Text.Units

/-!
Imports. What a builder makes is new, so all that stood in the namespace is as it was until the object is
put under its name; and it is put on the global object, where a script may have had its say.
-/
namespace Patchbay

open Script Text

variable {m k : Machine}

theorem Script.Lexer.IsName.indexOf? {text : String} (name : Lexer.IsName text) :
    indexOf? (.ofString text) = none := by
  obtain ⟨c, rest, written, starts, -⟩ := name
  obtain ⟨u, more, units, other⟩ : ∃ u more, (CodeUnits.ofString text).units.toList = u :: more ∧
      ¬ (0x30 ≤ u.toNat ∧ u.toNat ≤ 0x39) := by
    have range := CodeUnits.char_range c
    simp only [CodeUnits.ofString, CodeUnits.ofChars, CodeUnits.ofCodePoints, written, List.map_cons,
      List.flatMap_cons]
    by_cases small : c.toNat < 0x10000
    · rw [CodeUnits.ofCodePoint, if_pos small]
      refine ⟨_, _, rfl, fun digit => ?_⟩
      rw [Nat.toUInt16, UInt16.toNat_ofNat', Nat.mod_eq_of_lt small] at digit
      have member : c.toNat ∈ Lexer.unnamed := by
        simp only [Lexer.unnamed, List.mem_append, List.mem_range'_1]
        omega
      rw [Lexer.not_startsName _ member] at starts
      cases starts
    · rw [CodeUnits.ofCodePoint, if_neg small]
      refine ⟨_, _, rfl, fun digit => ?_⟩
      rw [Nat.toUInt16, UInt16.toNat_ofNat'] at digit
      omega
  have first : (decide ((0x30 : UInt16) ≤ u) && decide (u ≤ 0x39)) = false := by
    rw [Bool.eq_false_iff, ne_eq, Bool.and_eq_true, decide_eq_true_eq, decide_eq_true_eq]
    exact other
  simp [Script.indexOf?, units, first]

theorem Script.Lexer.IsName.isName {text : String} (name : Lexer.IsName text) :
    (Key.ofUnits (.ofString text)).isName = true := by
  rw [Key.ofUnits, name.indexOf?]
  rfl

theorem ends_create (grown : m.Grown k) {r : Ref} (fresh : m.heap[r]? = none) (plain : k.IsPlain r)
    (key : Key) (v : Value) :
    Ends Never k (create r key v) fun _ l => m.Grown l ∧ l.IsPlain r := by
  refine .of_ok (store_plain plain key _) ⟨grown.modify fresh _, ?_⟩
  obtain ⟨o, there, payload⟩ := plain
  refine ⟨o.insert key (.plain v), ?_, (Obj.payload_insert ..).trans payload⟩
  rw [Machine.withProperty, Array.getElem?_modify, if_pos rfl, there]
  rfl

theorem ends_objectOf (m : Machine) (fields : List (String × Value)) :
    Ends Never m (objectOf fields) fun r k => m.heap[r]? = none ∧ m.Grown k := by
  unfold objectOf
  refine (ends_newObject m _ _).bind ?_
  rintro r k ⟨grown, fresh, there⟩
  have filled : ∀ f : String × Value → Run Unit, (∀ field, f field = create r (.named field.1) field.2) →
      Ends Never k (fields.forM f) fun _ l => m.Grown l ∧ l.IsPlain r := by
    intro f is
    have plain : k.IsPlain r := ⟨_, there, rfl⟩
    clear there
    induction fields generalizing k with
    | nil => exact Ends.pure ⟨grown, plain⟩
    | cons field fields ih =>
      change Ends Never k (f field >>= fun _ => fields.forM f) _
      rw [is]
      refine (ends_create grown fresh plain _ _).bind ?_
      rintro _ l ⟨later, plain⟩
      exact ih l later plain
  refine (filled _ fun _ => rfl).bind ?_
  rintro _ l ⟨later, -⟩
  exact Ends.pure ⟨fresh, later⟩

theorem ends_hostFunction (m : Machine) (f : HostFn) :
    Ends Never m (Realm.hostFunction f) fun _ k => m.Grown k :=
  .of_ok rfl ((Machine.Grown.refl m).push _)

theorem run_ok {α β : Type} {x : Run α} {f : α → β} {a : α} (ran : x m = .ok a k) :
    (f <$> x) m = .ok (f a) k := by
  rw [map_eq_pure_bind, run_bind ran]
  rfl

theorem ModuleBuild.run_host (owner : Identity) :
    (host owner).run = (do
      let post ← Realm.hostFunction .post
      let error ← Realm.hostFunction .error
      let r ← objectOf [("name", .ofString owner.text), ("version", .ofString version),
        ("post", post), ("error", error)]
      return .ok r) := by
  simp only [host]
  rfl

namespace Namespace

theorem settle_bind {α β : Type} (x : ExceptT Fault Run α) (f : α → ExceptT Fault Run β) (m : Machine) :
    settle (x >>= f) m = match settle x m with
      | (.ok a, k) => settle (f a) k
      | (.error fault, k) => (.error fault, k) := by
  unfold settle
  rw [ExceptT.run_bind]
  simp only [EStateM.run]
  cases ran : x.run m with
  | ok result k =>
    rw [run_bind ran]
    cases result <;> rfl
  | error v k => rw [run_bind_error ran]

theorem settle_monadLift {α : Type} (x : Run α) (m : Machine) :
    settle (monadLift x : ExceptT Fault Run α) m = match x m with
      | .ok a k => (.ok a, k)
      | .error v k => (.error (.thrown v), k) := by
  unfold settle
  cases ran : x m with
  | ok a k => rw [show (monadLift x : ExceptT Fault Run α).run.run m = .ok (.ok a) k from run_ok ran]
  | error v k =>
    have threw : (Except.ok <$> x : Run (Except Fault α)) m = .error v k := by
      rw [map_eq_pure_bind, run_bind_error ran]
    rw [show (monadLift x : ExceptT Fault Run α).run.run m = .error v k from threw]

end Namespace

theorem ModuleBuild.host_built (owner : Identity) (m : Machine) :
    ∃ r k, Namespace.settle (host owner) m = (.ok r, k) ∧ m.heap[r]? = none ∧ m.Grown k := by
  obtain ⟨post, k, posted, first⟩ := (ends_hostFunction m .post).total
  obtain ⟨error, l, made, second⟩ := (ends_hostFunction k .error).total
  obtain ⟨r, j, built, fresh, third⟩ := (ends_objectOf l [("name", .ofString owner.text),
    ("version", .ofString version), ("post", post), ("error", error)]).total
  have grown := first.trans second
  refine ⟨r, j, ?_, grown.absent fresh, grown.trans third⟩
  unfold Namespace.settle
  rw [run_host, EStateM.run, run_bind posted, run_bind made, run_bind built]
  rfl

/-- Nothing of a script runs when the name is assigned on the global object: the object is an ordinary one,
and neither a setter nor an object that answers by other means is met on the way. -/
structure Script.Machine.Assigns (m : Machine) (n : Name) : Prop where
  plain : m.IsPlain Proto.global.ref
  found : ∃ found ∈ m.seek? (.ofUnits n) chainLimit Proto.global.ref, unset found = true

instance (m : Machine) (n : Name) : Decidable (m.Assigns n) :=
  decidable_of_iff (m.IsPlain Proto.global.ref ∧
    ∃ found ∈ m.seek? (.ofUnits n) chainLimit Proto.global.ref, unset found = true)
    ⟨fun ⟨plain, found⟩ => ⟨plain, found⟩, fun ⟨plain, found⟩ => ⟨plain, found⟩⟩

/-- No script has declared the name as a lexical one. -/
def Script.Machine.Undeclared (m : Machine) (n : Name) : Prop :=
  ∃ s ∈ m.scopes[0]?, s.names.lookup n = none

instance (m : Machine) (n : Name) : Decidable (m.Undeclared n) :=
  inferInstanceAs (Decidable (∃ s ∈ m.scopes[0]?, s.names.lookup n = none))

/-- Nothing of a script runs when an error of the kind is told of: its name is a value that is found along
its prototypes, or there is none. -/
def Script.Machine.Tells (m : Machine) (kind : ErrorKind) : Prop :=
  ∃ found ∈ m.seek? (.named "name") (chainLimit - 1) (Proto.ofError kind).ref, (told? found).isSome

instance (m : Machine) (kind : ErrorKind) : Decidable (m.Tells kind) :=
  inferInstanceAs (Decidable (∃ found ∈ m.seek? (.named "name") (chainLimit - 1) (Proto.ofError kind).ref,
    (told? found).isSome))

theorem Script.Machine.Assigns.of_grown {n : Name} (assigns : m.Assigns n) (grown : m.Grown k) :
    k.Assigns n := by
  obtain ⟨o, there, payload⟩ := assigns.plain
  obtain ⟨found, sought, calls⟩ := assigns.found
  exact ⟨⟨o, grown.heap there, payload⟩, found,
    Machine.seek?_of_seeks (grown.seeks (Machine.seeks_of_seek? sought)), calls⟩

theorem Script.Machine.Tells.of_grown {kind : ErrorKind} (tells : m.Tells kind) (grown : m.Grown k) :
    k.Tells kind := by
  obtain ⟨found, sought, told⟩ := tells
  exact ⟨found, Machine.seek?_of_seeks (grown.seeks (Machine.seeks_of_seek? sought)), told⟩

theorem Script.Machine.Assigns.run {name : String} (assigns : m.Assigns (.ofString name)) (r : Ref) :
    (∃ p : Property, p.slot = .data (.object r) true ∧ Namespace.bindGlobal name r m =
        .ok () (m.withProperty Proto.global.ref (.ofUnits (.ofString name)) p)) ∨
      ∃ w k, Namespace.bindGlobal name r m = .error w k ∧ m.Throws .type w k := by
  obtain ⟨found, sought, calls⟩ := assigns.found
  obtain ⟨a, k, ran, puts⟩ := putFrom_plain (v := .object r) mainEngine assigns.plain
    (Machine.seeks_of_seek? sought) calls
  have bound : Namespace.bindGlobal name r m = checkAssigned true (.ofUnits (.ofString name)) a k := by
    unfold Namespace.bindGlobal putProperty
    rw [run_bind ran]
  rw [bound]
  cases puts with
  | @done p is => exact .inl ⟨p, is, rfl⟩
  | refused other =>
    right
    obtain ⟨text, shown⟩ := shownKey_run (.ofUnits (.ofString name)) m
    cases a with
    | done => exact absurd rfl other
    | readOnly =>
      obtain ⟨w, l, threw, throws⟩ := throwNew_run (α := Unit) .type ("'" ++ text ++ "' is read-only") m
      exact ⟨w, l, (run_bind shown).trans threw, throws⟩
    | noSetter => exact throwNew_run .type _ m
    | notExtensible => exact throwNew_run .type _ m
    | refused => exact throwNew_run .type _ m

/-- The global object and the names declared beside it are as they were. -/
structure Script.Machine.KeepsGlobals (m k : Machine) : Prop where
  object : ∀ {o : Obj}, m.heap[Proto.global.ref]? = some o → k.heap[Proto.global.ref]? = some o
  declared : ∀ {s : Scope}, m.scopes[0]? = some s → k.scopes[0]? = some s

namespace Script.Machine.KeepsGlobals

variable {l : Machine}

theorem of_grown (grown : m.Grown k) : m.KeepsGlobals k := ⟨grown.heap, grown.scopes⟩

theorem trans (first : m.KeepsGlobals k) (second : k.KeepsGlobals l) : m.KeepsGlobals l :=
  ⟨fun there => second.object (first.object there), fun there => second.declared (first.declared there)⟩

theorem undeclared {n : Name} (keeps : m.KeepsGlobals k) (undeclared : m.Undeclared n) : k.Undeclared n := by
  obtain ⟨s, outermost, lacks⟩ := undeclared
  exact ⟨s, keeps.declared outermost, lacks⟩

end Script.Machine.KeepsGlobals

/-- Nothing of a script runs when the fault is told of: an error of the engine has a name that is told, and any
other value that was thrown is no object. -/
inductive Script.Machine.TellsOf (m : Machine) : Fault → Prop
  | error {kind : ErrorKind} {message trace : CodeUnits} {r : Ref}
    (made : m.heap[r]? = some (errorObject kind message trace)) (tells : m.Tells kind) :
    TellsOf m (.thrown (.object r))
  | scalar {v : Value} (other : v.isObject = false) : TellsOf m (.thrown v)
  | unthrown {f : Fault} (other : ∀ v, f ≠ .thrown v) : TellsOf m f

theorem Script.Machine.Throws.tellsOf {kind : ErrorKind} {v : Value} (throws : m.Throws kind v k)
    (tells : m.Tells kind) : k.TellsOf (.thrown v) := by
  cases throws with
  | error message trace grown made => exact .error made (tells.of_grown grown)

theorem Script.Machine.Throws.grown {kind : ErrorKind} {v : Value} (throws : m.Throws kind v k) :
    m.Grown k := by
  cases throws with
  | error message trace grown made => exact grown

namespace Namespace

def importing (n : Namespace) (modules : ModuleTable) (name : String) : ExceptT Fault Run Unit := do
  match modules.get? name with
  | some m => bindGlobal name (← m.build n.identity)
  | none => throwReference ("no module named '" ++ name ++ "'")

theorem importModule_eq (n : Namespace) (modules : ModuleTable) (name : String) :
    n.importModule modules name =
      if isAllBlank name.toList then n.refuse "import" name missingSource
      else n.attempt "import" name (n.importing modules name) := rfl

/-- Nothing of a script runs when an import puts its object under the name, or when its failure is told of. -/
structure Quiet (n : Namespace) (modules : ModuleTable) (name : String) : Prop where
  unlisted : modules.get? name = none → n.machine.Tells .reference
  built : ∀ b ∈ modules.get? name, ∀ r k, settle (b.build n.identity) n.machine = (.ok r, k) →
    k.Assigns (.ofString name) ∧ k.Tells .type
  failed : ∀ b ∈ modules.get? name, ∀ f k, settle (b.build n.identity) n.machine = (.error f, k) →
    k.TellsOf f

section

variable {n : Namespace} {modules : ModuleTable} {name : String}

theorem importing_none (unlisted : modules.get? name = none) :
    ∃ v k, settle (n.importing modules name) n.machine = (.error (.thrown v), k) ∧
      n.machine.Throws .reference v k := by
  obtain ⟨v, k, threw, throws⟩ := throwNew_run (α := Unit) .reference
    ("no module named '" ++ name ++ "'") n.machine
  refine ⟨v, k, ?_, throws⟩
  have thrown : n.importing modules name =
      monadLift (throwReference ("no module named '" ++ name ++ "'") : Run Unit) := by
    simp only [importing, unlisted]
    rfl
  rw [thrown, settle_monadLift, throwReference, threw]

theorem importing_some {b : BuiltinModule} (listed : modules.get? name = some b) :
    settle (n.importing modules name) n.machine =
      match settle (b.build n.identity) n.machine with
      | (.ok r, k) => settle (monadLift (bindGlobal name r) : ExceptT Fault Run Unit) k
      | (.error fault, k) => (.error fault, k) := by
  simp only [importing, listed]
  rw [settle_bind]
  rcases settle (b.build n.identity) n.machine with ⟨_ | _, k⟩ <;> rfl

inductive Imports (n : Namespace) (modules : ModuleTable) (name : String) :
    Except Fault Unit × Machine → Prop
  | bound {b : BuiltinModule} {r : Ref} {k l : Machine} (listed : modules.get? name = some b)
    (built : settle (b.build n.identity) n.machine = (.ok r, k))
    (binds : k.Assigns (.ofString name) → ∃ p : Property, p.slot = .data (.object r) true ∧
      l = k.withProperty Proto.global.ref (.ofUnits (.ofString name)) p) :
    Imports n modules name (.ok (), l)
  | failed {f : Fault} {k : Machine}
    (told : n.Quiet modules name → n.machine.KeepsGlobals k ∧ k.TellsOf f) : Imports n modules name (.error f, k)

/-- If the builder of the module leaves what is global alone, the import does so up to the binding. -/
theorem importing_ends (spares : ∀ b ∈ modules.get? name,
      n.machine.KeepsGlobals (settle (b.build n.identity) n.machine).2) :
    Imports n modules name (settle (n.importing modules name) n.machine) := by
  cases listed : modules.get? name with
  | none =>
    obtain ⟨v, k, ended, throws⟩ := importing_none listed
    rw [ended]
    exact .failed fun quiet => ⟨.of_grown throws.grown, throws.tellsOf (quiet.unlisted listed)⟩
  | some b =>
    have spared := spares b listed
    rw [importing_some listed]
    rcases built : settle (b.build n.identity) n.machine with ⟨f | r, k⟩
    · rw [built] at spared
      exact .failed fun quiet => ⟨spared, quiet.failed b listed f k built⟩
    · rw [built] at spared
      dsimp only
      rw [settle_monadLift]
      cases assigned : bindGlobal name r k with
      | ok _ l =>
        refine .bound listed built fun assigns => ?_
        obtain ⟨p, is, ran⟩ | ⟨v, l, threw, -⟩ := assigns.run r
        · rw [assigned] at ran
          cases ran
          exact ⟨p, is, rfl⟩
        · rw [assigned] at threw
          cases threw
      | error w l =>
        refine .failed fun quiet => ?_
        obtain ⟨assigns, tells⟩ := quiet.built b listed r k built
        obtain ⟨p, -, ran⟩ | ⟨v, l, threw, throws⟩ := assigns.run r
        · rw [assigned] at ran
          cases ran
        · rw [assigned] at threw
          cases threw
          exact ⟨spared.trans (.of_grown throws.grown), throws.tellsOf tells⟩

end

theorem quietly_error {α : Type} {x : Run α} {v : Value} (threw : x m = .error v k) :
    quietly x m = .ok none k := by
  have mapped : (some <$> x) m = .error v k := by rw [map_eq_pure_bind, run_bind_error threw]
  simp only [quietly, orElse, mapped]
  rfl

theorem describe_unthrown {f : Fault} (other : ∀ v, f ≠ .thrown v) (m : Machine) :
    (describe f m).2 = m := by
  cases f with
  | thrown v => exact absurd rfl (other v)
  | _ => rfl

theorem describe_scalar {v : Value} (other : v.isObject = false) (m : Machine) :
    m.Grown (describe (.thrown v) m).2 := by
  cases v with
  | object r => cases other
  | symbol s =>
    obtain ⟨w, k, threw, throws⟩ := throwNew_run (α := CodeUnits) .type "cannot convert symbol to string" m
    have texted : toText mainEngine (.symbol s) m = .error w k := threw
    have described : (describeFault mainEngine (.thrown (.symbol s))).run m = .ok (unprintable, none) k := by
      change (quietly (toText mainEngine (.symbol s)) >>= fun text =>
        pure ((text.bind fun s => s.toString?.toOption).getD unprintable, none)) m = _
      rw [run_bind (quietly_error texted)]
      rfl
    rw [describe, described]
    exact throws.grown
  | _ => exact .refl m

theorem grown_describe {f : Fault} (tells : m.TellsOf f) : m.Grown (describe f m).2 := by
  cases tells with
  | @error kind message trace r made tells =>
    obtain ⟨found, sought, told⟩ := tells
    obtain ⟨w, told⟩ := Option.isSome_iff_exists.mp told
    obtain ⟨text, gives⟩ := gives_describeThrown made mainEngine chainLimit_succ.symm
      (Machine.seeks_of_seek? sought) told
    obtain ⟨l, ran, later⟩ := gives m (.refl m)
    have described : (describeFault mainEngine (.thrown (.object r))).run m = .ok text l := ran
    rw [describe, described]
    exact later
  | scalar other => exact describe_scalar other m
  | unthrown other =>
    rw [describe_unthrown other]
    exact .refl m

theorem nul_free {source : String} (free : ∀ c ∈ source.toList, c.toNat ≠ 0) :
    (parenthesized source).findIdx? (· == 0) = none := by
  rw [List.findIdx?_eq_none_iff]
  intro b member
  refine beq_false_of_ne ?_
  rintro rfl
  obtain ⟨c, member, nul⟩ := Utf8.zero_mem_encode member
  simp only [String.toList_append, List.mem_append] at member
  obtain (bracket | member) | bracket := member
  · simp only [String.reduceToList, List.mem_cons, List.not_mem_nil, or_false] at bracket
    obtain rfl | rfl := bracket <;> cases nul
  · exact free c member nul
  · simp only [String.reduceToList, List.mem_cons, List.not_mem_nil, or_false] at bracket
    obtain rfl | rfl := bracket <;> cases nul

/-- What a source is read to be is what is run of it. -/
theorem runBytes_gives {source : String} {p : Program} {v : Value}
    (free : ∀ c ∈ source.toList, c.toNat ≠ 0)
    (read : Parser.parse nestingLimit (script source) true = .ok p)
    (gives : Gives m (runProgram mainEngine p) v) :
    ∃ k, (runBytes (parenthesized source) true).run.run m = .ok (.ok v) k ∧ m.Grown k := by
  have run : runSource mainEngine (script source) true = runProgram mainEngine p := by
    unfold runSource
    rw [read]
  obtain ⟨k, ran, grown⟩ := gives m (.refl m)
  rw [← run] at ran
  refine ⟨k, ?_, grown⟩
  unfold runBytes
  rw [nul_free free]
  exact run_ok ran

theorem runBytes_name {name : String} {v : Value} (written : Lexer.IsName name)
    (free : name ∉ reservedWords ++ strictWords) (undeclared : m.Undeclared (.ofString name))
    (has : m.property? Proto.global.ref (.ofUnits (.ofString name)) = some v) :
    ∃ k, (runBytes (parenthesized name) true).run.run m = .ok (.ok v) k ∧ m.Grown k := by
  have brackets : Parser.Brackets (script name) name.toList := chars_script name
  obtain ⟨place, read⟩ := Parser.parse_name brackets written free 995
  obtain ⟨s, outermost, lacks⟩ := undeclared
  refine runBytes_gives (fun c => written.ne_nul) read (gives_runExpr (d := 2498) ?_)
  refine (Gives.reach m place).bind (gives_readName_global ?_ written.isName has)
  intro k grown
  simp [findScope, grown.scopes outermost, lacks]

/-- Whatever the builder of a module is, as long as it leaves alone what is global: an import that succeeds puts
the object that was built under the name, and the name then reads as that object, unless a script has made the
global object answer otherwise or has declared the name. An import that fails leaves all that is global as it
was, unless a script is run on the way. -/
theorem import_visible (n : Namespace) (modules : ModuleTable) (name : String)
    (spares : ∀ b ∈ modules.get? name,
      n.machine.KeepsGlobals (settle (b.build n.identity) n.machine).2) :
    (isAllBlank name.toList →
      (∃ d, (n.importModule modules name).outcome = .error d) ∧ (n.importModule modules name).after = n) ∧
    ((n.importModule modules name).outcome = .ok () →
      ∃ b r k, modules.get? name = some b ∧ settle (b.build n.identity) n.machine = (.ok r, k) ∧
        (k.Assigns (.ofString name) → n.machine.Undeclared (.ofString name) →
          Lexer.IsName name → name ∉ reservedWords ++ strictWords →
          ∃ l, (runBytes (parenthesized name) true).run.run (n.importModule modules name).after.machine =
            .ok (.ok (.object r)) l)) ∧
    ∀ d, (n.importModule modules name).outcome = .error d → n.Quiet modules name →
      n.machine.KeepsGlobals (n.importModule modules name).after.machine := by
  rw [importModule_eq]
  by_cases blank : isAllBlank name.toList = true
  · rw [if_pos blank]
    exact ⟨fun _ => ⟨⟨_, rfl⟩, rfl⟩, nofun, fun _ _ _ => .of_grown (.refl _)⟩
  · rw [if_neg blank]
    refine ⟨fun is => absurd is blank, ?_⟩
    have ends : Imports n modules name _ := importing_ends spares
    unfold attempt
    generalize settle (n.importing modules name) n.machine = result at ends
    cases ends with
    | @bound b r k l listed built binds =>
      refine ⟨fun _ => ⟨b, r, k, listed, built, fun assigns undeclared written free => ?_⟩, nofun⟩
      obtain ⟨p, is, rfl⟩ := binds assigns
      have spared := spares b listed
      rw [built] at spared
      obtain ⟨s, outermost, lacks⟩ := spared.undeclared undeclared
      have drained : (k.withProperty Proto.global.ref (.ofUnits (.ofString name)) p).Grown
          { k.withProperty Proto.global.ref (.ofUnits (.ofString name)) p with posts := [] } :=
        ⟨fun there => there, fun there => there, rfl⟩
      have has := drained.property? written.isName (property?_withProperty assigns.plain is)
      have still : Machine.Undeclared
          { k.withProperty Proto.global.ref (.ofUnits (.ofString name)) p with posts := [] }
          (.ofString name) := ⟨s, outermost, lacks⟩
      obtain ⟨l, ran, -⟩ := runBytes_name written free still has
      exact ⟨l, ran⟩
    | @failed f k told =>
      refine ⟨nofun, fun _ _ quiet => ?_⟩
      obtain ⟨keeps, tells⟩ := told quiet
      have described := keeps.trans (.of_grown (grown_describe tells))
      exact ⟨described.object, described.declared⟩

theorem ok_of_toOption {ε α : Type} {x : Except ε α} {a : α} (told : x.toOption = some a) : x = .ok a := by
  cases x <;> cases told
  rfl

theorem error_of_toOption {ε α : Type} {x : Except ε α} (told : x.toOption = none) : ∃ e, x = .error e := by
  cases x with
  | ok a => cases told
  | error e => exact ⟨e, rfl⟩

theorem fresh_ready :
    let n := fresh (.ofNat 1) none
    let modules : ModuleTable := ⟨[hostModule]⟩
    (n.machine.Undeclared (.ofString "NaN") ∧
        n.machine.property? Proto.global.ref (.ofUnits (.ofString "NaN")) = some (.number .nan)) ∧
      (n.machine.Assigns (.ofString "ember") ∧ n.machine.Undeclared (.ofString "ember") ∧
        (n.importModule modules "ember").outcome.toOption = some ()) ∧
      n.machine.Tells .reference ∧ (n.importModule modules "numpy").outcome.toOption = none := by
  rw [fresh_eq]
  decide +kernel

/-- The host's own module in a new namespace, and one that nobody knows. -/
theorem host_module_visible :
    let n := fresh (.ofNat 1) none
    let modules : ModuleTable := ⟨[hostModule]⟩
    (∃ r k, (runBytes (parenthesized "ember") true).run.run (n.importModule modules "ember").after.machine =
        .ok (.ok (.object r)) k ∧ n.machine.heap[r]? = none) ∧
      n.machine.KeepsGlobals (n.importModule modules "numpy").after.machine := by
  intro n modules
  have written : Lexer.IsName "ember" :=
    ⟨'e', ['m', 'b', 'e', 'r'], rfl, by simp [startsName, isAsciiLetter],
      by simp [continuesName, startsName, isAsciiLetter]⟩
  have listed : modules.get? "ember" = some hostModule := rfl
  have unlisted : modules.get? "numpy" = none := rfl
  obtain ⟨-, ⟨assigns, undeclared, ok⟩, tells, failed⟩ := fresh_ready
  obtain ⟨r, k, built, fresh, grown⟩ := ModuleBuild.host_built n.identity n.machine
  constructor
  · have spares : ∀ b ∈ modules.get? "ember",
        n.machine.KeepsGlobals (settle (b.build n.identity) n.machine).2 := by
      rw [listed]
      rintro _ ⟨⟩
      rw [show settle (hostModule.build n.identity) n.machine = (.ok r, k) from built]
      exact .of_grown grown
    obtain ⟨b, _, _, found, is, reads⟩ := (import_visible n modules "ember" spares).2.1 (ok_of_toOption ok)
    cases listed.symm.trans found
    cases built.symm.trans is
    obtain ⟨l, ran⟩ := reads (assigns.of_grown grown) undeclared written (by decide)
    exact ⟨r, l, ran, fresh⟩
  · obtain ⟨d, failed⟩ := error_of_toOption failed
    have quiet : n.Quiet modules "numpy" := ⟨fun _ => tells, by simp [unlisted], by simp [unlisted]⟩
    exact (import_visible n modules "numpy" (by simp [unlisted])).2.2 d failed quiet

def answerAfter (source name expression : String) : Option Unit × Option (Option Reply) :=
  let a := ((fresh (.ofNat 1) none).execute source).after.importModule ⟨[hostModule]⟩ name
  (a.outcome.toOption, (a.after.evaluate expression).outcome.toOption)

/-- A lexical variable hides the module, and a getter that is called when a failure is told of may change
what it likes. -/
theorem import_overruled :
    answerAfter "let ember = 1" "ember" "ember" = (some (), some (some (.scalar (.int 1)))) ∧
      answerAfter
        "Object.defineProperty(ReferenceError.prototype, 'name', \x7bget()\x7bx = 1\x7d\x7d)" "numpy" "x" =
          (none, some (some (.scalar (.int 1)))) := by
  unfold answerAfter
  rw [fresh_eq]
  decide +kernel

end Namespace

end Patchbay
