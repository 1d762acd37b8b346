import Patchbay.Namespace
import Mathlib.Tactic.Common

/-!
The state in which every namespace starts, object by object. What sets it up adds objects and changes some
that are there, and it goes by nothing but the number of the objects. So it is a list of writes that can be
told in advance, and each object of the state is what the writes to its place make of it, whatever stands
elsewhere.
-/
namespace Patchbay.Script

open Binary Text

/-- The properties with one more, which takes the place of the one that was under its key. -/
def Obj.entered (k : Key) (p : Property) : List (Key × Property) → List (Key × Property)
  | [] => [(k, p)]
  | (l, q) :: rest => if l == k then (l, p) :: rest else (l, q) :: entered k p rest

theorem Obj.entered_eq (k : Key) (p : Property) (props : List (Key × Property)) :
    entered k p props = match props.findIdx? fun entry => entry.1 == k with
      | some i => props.modify i fun entry => (entry.1, p)
      | none => props ++ [(k, p)] := by
  induction props with
  | nil => rfl
  | cons entry rest ih =>
    rw [entered, List.findIdx?_cons]
    cases entry.1 == k with
    | true => rfl
    | false =>
      rw [ih]
      cases rest.findIdx? fun entry => entry.1 == k <;> rfl

def Obj.enter (o : Obj) (k : Key) (p : Property) : Obj :=
  { o with props := (entered k p o.props.toList).toArray }

theorem Obj.insert_eq (o : Obj) (k : Key) (p : Property) : o.insert k p = o.enter k p := by
  obtain ⟨proto, extensible, ⟨props⟩, payload⟩ := o
  rw [enter, entered_eq, insert, List.findIdx?_toArray]
  cases props.findIdx? fun entry => entry.1 == k <;> simp

namespace Realm

inductive Write
  | add (o : Obj)
  | put (r : Ref) (k : Key) (p : Property)
  | change (r : Ref) (f : Obj → Obj)
  | describe (symbols : Array (Option CodeUnits))

namespace Write

def apply (m : Machine) : Write → Machine
  | add o => { m with heap := m.heap.push o }
  | put r k p => { m with heap := m.heap.modify r fun o => o.insert k p }
  | change r f => { m with heap := m.heap.modify r f }
  | describe symbols => { m with symbols := symbols }

def sizeAfter (n : Nat) : List Write → Nat
  | [] => n
  | add _ :: ws => sizeAfter (n + 1) ws
  | put .. :: ws | change .. :: ws | describe _ :: ws => sizeAfter n ws

/-- What stands at a place after some writes; `n` is the size of the heap before them. -/
def objectAfter (r : Ref) (n : Nat) (o : Option Obj) : List Write → Option Obj
  | [] => o
  | add p :: ws => objectAfter r (n + 1) (if r = n then some p else o) ws
  | put s k p :: ws => objectAfter r n (if s = r then o.map (·.enter k p) else o) ws
  | change s f :: ws => objectAfter r n (if s = r then o.map f else o) ws
  | describe _ :: ws => objectAfter r n o ws

def symbolsAfter (symbols : Array (Option CodeUnits)) : List Write → Array (Option CodeUnits)
  | [] => symbols
  | describe symbols :: ws => symbolsAfter symbols ws
  | add _ :: ws | put .. :: ws | change .. :: ws => symbolsAfter symbols ws

theorem size_foldl (m : Machine) (ws : List Write) :
    (ws.foldl apply m).heap.size = sizeAfter m.heap.size ws := by
  induction ws generalizing m with
  | nil => rfl
  | cons w ws ih =>
    rw [List.foldl_cons, ih]
    cases w <;> simp [apply, sizeAfter]

theorem getElem?_foldl (m : Machine) (ws : List Write) (r : Ref) :
    (ws.foldl apply m).heap[r]? = objectAfter r m.heap.size m.heap[r]? ws := by
  induction ws generalizing m with
  | nil => rfl
  | cons w ws ih =>
    rw [List.foldl_cons, ih]
    cases w with
    | add o => simp [apply, objectAfter, Array.getElem?_push]
    | put s k p => simp [apply, objectAfter, Array.getElem?_modify, Obj.insert_eq]
    | change s f => simp [apply, objectAfter, Array.getElem?_modify]
    | describe symbols => rfl

theorem heap_foldl (ws : List Write) :
    (ws.foldl apply {}).heap =
      ((List.range (sizeAfter 0 ws)).map fun r => (objectAfter r 0 none ws).getD default).toArray := by
  have size : (ws.foldl apply {}).heap.size = sizeAfter 0 ws := size_foldl {} ws
  apply Array.ext
  · simp [size]
  · intro r inside _
    have there : (ws.foldl apply {}).heap[r]? = objectAfter r 0 none ws := getElem?_foldl {} ws r
    rw [Array.getElem?_eq_getElem inside] at there
    simp [← there]

theorem foldl_apply (m : Machine) (ws : List Write) :
    ws.foldl apply m =
      { m with heap := (ws.foldl apply m).heap, symbols := symbolsAfter m.symbols ws } := by
  induction ws generalizing m with
  | nil => rfl
  | cons w ws ih =>
    rw [List.foldl_cons, ih]
    cases w <;> rfl

end Write

/-- What a computation writes and gives on a heap of some size. -/
structure Built (n : Nat) {α : Type} (x : Run α) where
  value : α
  writes : List Write
  run : ∀ m : Machine, m.heap.size = n → x m = .ok value (writes.foldl Write.apply m)

namespace Built

variable {n : Nat}

protected def pure {α : Type} (a : α) : Built n (pure a) := ⟨a, [], fun _ _ => rfl⟩

protected def bind {α β : Type} {x : Run α} {f : α → Run β} (first : Built n x)
    (rest : Built (Write.sizeAfter n first.writes) (f first.value)) : Built n (x >>= f) where
  value := rest.value
  writes := first.writes ++ rest.writes
  run m size := by
    have ran : (x >>= f) m = f first.value (first.writes.foldl Write.apply m) := by
      change EStateM.bind x f m = _
      rw [EStateM.bind, first.run m size]
    rw [ran, rest.run _ (by rw [Write.size_foldl, size]), List.foldl_append]

protected def forM {α : Type} {f : α → Run Unit} (each : ∀ n a, Built n (f a)) :
    ∀ {n : Nat} (all : List α), Built n (all.forM f)
  | _, [] => .pure ()
  | _, a :: rest => .bind (each _ a) (Built.forM each rest)

protected def allocate (o : Obj) : Built n (allocate o) := ⟨n, [.add o], fun _ size => by rw [← size]; rfl⟩

protected def modifyObject (r : Ref) (f : Obj → Obj) : Built n (modifyObject r f) :=
  ⟨(), [.change r f], fun _ _ => rfl⟩

protected def store (r : Ref) (s : Name) (p : Property) : Built n (store r (.text s) p) :=
  ⟨(), [.put r (.text s) p], fun _ _ => rfl⟩

protected def storeSymbol (r : Ref) (id : Nat) (p : Property) : Built n (store r (.symbol id) p) :=
  ⟨(), [.put r (.symbol id) p], fun _ _ => rfl⟩

protected def describe (symbols : Array (Option CodeUnits)) :
    Built n (modify fun m => { m with symbols := symbols }) :=
  ⟨(), [.describe symbols], fun _ _ => rfl⟩

protected def put (target : Ref) (name : String) (v : Value) : Built n (put target name v) := .store ..

protected def functionOf (name : String) (arity : Nat) (f : Native) : Built n (functionOf name arity f) :=
  .allocate _

protected def installed (target : Ref) (entry : Entry Native) :
    Built n (do Realm.put target entry.name (.object (← Realm.functionOf entry.name entry.arity entry.fn))) :=
  .bind (.functionOf ..) (.put ..)

protected def install (target : Ref) (all : List (Entry Native)) : Built n (install target all) :=
  .forM (fun _ entry => .installed target entry) all

protected def installIterator (target : Ref) (names : List String) (f : Native) :
    Built n (installIterator target names f) :=
  .bind (.functionOf ..) <| .bind (.forM (fun _ name => .put target name _) names) (.storeSymbol ..)

protected def installGetter (target : Ref) (name : String) (f : Native) :
    Built n (installGetter target name f) :=
  .bind (.functionOf ..) (.store ..)

protected def tag (target : Ref) (name : String) : Built n (tag target name) := .storeSymbol ..

protected def maker (name : String) (arity : Nat) (f : Native) (p : Proto) :
    Built n (maker name arity f p) :=
  .bind (.functionOf ..) <| .bind (.store ..) <| .bind (.put ..) (.pure _)

protected def globalMaker (name : String) (arity : Nat) (f : Native) (p : Proto) :
    Built n (globalMaker name arity f p) :=
  .bind (.maker ..) <| .bind (.put ..) (.pure _)

protected def inherit (r parent : Ref) : Built n (inherit r parent) := .modifyObject ..

protected def constant {α : Type} (r : Ref) (valueOf : α → Value) (entry : String × α) :
    Built n ((fun (name, a) => store r (.named name) (.fixed (valueOf a)) : String × α → Run Unit) entry) :=
  .store r (.ofString entry.1) (.fixed (valueOf entry.2))

protected def getter {α : Type} (target : Ref) (native : α → Native) (entry : String × α) :
    Built n ((fun (name, a) => Realm.installGetter target name (native a) : String × α → Run Unit) entry) :=
  .installGetter target entry.1 (native entry.2)

def objects : Built n installObjects :=
  .bind (.globalMaker ..) <| .bind (.install ..) <| .bind (.install ..) <| .bind (.functionOf ..) <|
    .bind (.functionOf ..) (.store ..)

def functions : Built n installFunctions :=
  .bind (.modifyObject ..) <| .bind (.globalMaker ..) <| .bind (.install ..) <| .bind (.functionOf ..) <|
    .storeSymbol ..

def errorMaker (parent : Ref) (kind : ErrorKind) : Built n (do
    let r ← Realm.globalMaker kind.name (if kind == .aggregate then 2 else 1) (.error (.make kind))
      (.ofError kind)
    Realm.inherit r parent) :=
  .bind (.globalMaker ..) (.inherit ..)

def errorTexts (kind : ErrorKind) : Built n (do
    Realm.put (Proto.ofError kind).ref "name" (.ofString kind.name)
    Realm.put (Proto.ofError kind).ref "message" (.string default)) :=
  .bind (.put ..) (.put ..)

def errors : Built n installErrors :=
  .bind (.globalMaker ..) <| .bind (.install ..) <|
    .bind (.forM (fun _ kind => errorMaker _ kind) _) <| .forM (fun _ kind => errorTexts kind) _

def lists : Built n installLists :=
  .bind (.globalMaker ..) <| .bind (.install ..) <| .bind (.install ..) <|
    .bind (.functionOf ..) <| .bind (.put ..) <| .bind (.put ..) <| .installIterator ..

def texts : Built n installTexts :=
  .bind (.globalMaker ..) <| .bind (.install ..) <| .bind (.install ..) <| .installIterator ..

def shared (r : Ref) (entry : Entry Native) : Built n (do
    let f ← Realm.functionOf entry.name entry.arity entry.fn
    Realm.put r entry.name (.object f)
    Realm.put Proto.global.ref entry.name (.object f)) :=
  .bind (.functionOf ..) <| .bind (.put ..) (.put ..)

def numbers : Built n installNumbers :=
  .bind (.globalMaker ..) <| .bind (.install ..) <| .bind (.install ..) <| .bind (.install ..) <|
    .bind (.forM (fun _ entry => shared _ entry) _) <|
    .bind (.forM (fun _ entry => .constant _ .number entry) _) <|
    .bind (.globalMaker ..) <| .bind (.install ..) <|
    .bind (.globalMaker ..) <| .bind (.install ..) <| .bind (.install ..) <| .bind (.tag ..) <|
    .bind (.allocate ..) <| .bind (.put ..) <| .bind (.install ..) <|
    .bind (.forM (fun _ entry => .constant _ (fun x => .number (.ofFloat x)) entry) _) (.tag ..)

def wellKnown (r : Ref) (entry : String × Nat) : Built n
    ((fun (name, id) => store r (.named (String.ofList (name.toList.drop 7))) (.fixed (.symbol id)) :
      String × Nat → Run Unit) entry) :=
  .store r (.ofString (String.ofList (entry.1.toList.drop 7))) (.fixed (.symbol entry.2))

def symbols : Built n installSymbols :=
  .bind (.describe _) <| .bind (.globalMaker ..) <| .bind (.install ..) <| .bind (.install ..) <|
    .bind (.installGetter ..) <| .bind (.forM (fun _ entry => wellKnown _ entry) _) <|
    .bind (.functionOf ..) <| .bind (.storeSymbol ..) (.tag ..)

def dates : Built n installDates :=
  .bind (.globalMaker ..) <| .bind (.install ..) <| .bind (.install ..) <| .bind (.functionOf ..) <|
    .storeSymbol ..

def walk (entry : Proto × String) : Built n
    ((fun (p, name) => do
      Realm.install p.ref (entriesOf .iterator IteratorFn.methods)
      Realm.tag p.ref name : Proto × String → Run Unit) entry) :=
  .bind (.install entry.1.ref (entriesOf .iterator IteratorFn.methods)) (.tag entry.1.ref entry.2)

def collections : Built n installCollections :=
  .bind (.globalMaker ..) <| .bind (.install ..) <| .bind (.installGetter ..) <|
    .bind (.installIterator ..) <| .bind (.tag ..) <|
    .bind (.globalMaker ..) <| .bind (.install ..) <| .bind (.installGetter ..) <|
    .bind (.installIterator ..) <| .bind (.tag ..) <|
    .bind (.globalMaker ..) <| .bind (.tag ..) <| .bind (.globalMaker ..) <| .bind (.tag ..) <|
    .bind (.installIterator ..) <| .forM (fun _ entry => walk entry) _

def elementMaker (base : Ref) (element : Element) : Built n (do
    let p := Proto.ofElement element
    let r ← Realm.globalMaker (element.name ++ "Array") 3 (.typed (.make element)) p
    Realm.inherit r base
    store r (.named "BYTES_PER_ELEMENT") (.fixed (.ofNat element.size))
    store p.ref (.named "BYTES_PER_ELEMENT") (.fixed (.ofNat element.size))) :=
  .bind (.globalMaker ..) <| .bind (.inherit ..) <| .bind (.store ..) (.store ..)

def bytes : Built n installBytes :=
  .bind (.globalMaker ..) <| .bind (.install ..) <| .bind (.install ..) <| .bind (.installGetter ..) <|
    .bind (.tag ..) <|
    .bind (.maker ..) <| .bind (.install ..) <| .bind (.install ..) <| .bind (.installIterator ..) <|
    .bind (.forM (fun _ entry => .getter _ .typed entry) _) <|
    .bind (.functionOf ..) <| .bind (.storeSymbol ..) <|
    .bind (.forM (fun _ element => elementMaker _ element) _) <|
    .bind (.globalMaker ..) <| .bind (.install ..) <|
    .bind (.forM (fun _ entry => .getter _ .view entry) _) (.tag ..)

def others : Built n installOthers :=
  .bind (.functionOf ..) <| .bind (.put ..) <| .bind (.allocate ..) <| .bind (.put ..) <|
    .bind (.install ..) <| .bind (.tag ..) <|
    .bind (.globalMaker ..) <| .bind (.install ..) <| .bind (.install ..) <| .bind (.tag ..) <|
    .bind (.globalMaker ..) <| .bind (.install ..) (.install ..)

def constants : Built n installConstants :=
  .bind (.forM (fun _ entry => .constant _ id entry) _) (.put ..)

def prototype (p : Proto) : Built n (do let _ ← allocate (protoObject p)) := .bind (.allocate ..) (.pure _)

def whole : Built n build :=
  .bind (.forM (fun _ p => prototype p) _) <| .bind objects <| .bind functions <| .bind errors <|
    .bind lists <| .bind texts <| .bind numbers <| .bind symbols <| .bind dates <|
    .bind collections <| .bind bytes <| .bind others <| .bind constants <|
    .bind (.bind (.allocate ..) (.pure _)) (.store ..)

end Built

def writes : List Write := (Built.whole (n := 0)).writes

/-- The machine as it begins. No object of it waits for those that were made or changed before it, so it can
be looked into where `Machine.initial` would have to be set up as a whole. -/
def begun : Machine where
  heap := ((List.range (Write.sizeAfter 0 writes)).map fun r =>
    (Write.objectAfter r 0 none writes).getD default).toArray
  symbols := Write.symbolsAfter #[] writes

theorem initial_eq : Machine.initial = begun := by
  have built : Machine.initial = writes.foldl Write.apply {} := by
    rw [Machine.initial, (Built.whole (n := 0)).run {} rfl]
    rfl
  rw [built, Write.foldl_apply, Write.heap_foldl]
  rfl

end Realm

end Patchbay.Script

namespace Patchbay.Namespace

open Script

theorem fresh_eq (identity : Identity) (limit : Option Nat) :
    fresh identity limit = ⟨identity, { Realm.begun with memoryLimit := limit }⟩ := by
  rw [fresh, Realm.initial_eq]

end Patchbay.Namespace
