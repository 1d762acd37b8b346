import Patchbay.Owner
import Patchbay.Proofs.Lifecycle

/-!
What an owner may do with its name: whatever it is asked, it keeps its identity, everything that it
sends back is under that identity, and only an accepted message puts work off. Nothing is said here of
what scripts compute.
-/
namespace Patchbay

def Event.owner : Event → Identity
  | .emitted owner _ _ => owner
  | .reported d => d.owner

/-- The work that a message puts off; nothing when it asks for none or is at fault. -/
def Message.work? (m : Message) : Option DeferredTask :=
  match m.selector, m.args with
  | "load", [.symbol name] => some (.load name)
  | "read", [] => some (.read none)
  | "read", [.symbol name] => some (.read (some name))
  | _, _ => none

theorem Message.work?_eq_none (m : Message) (load : m.selector ≠ "load") (read : m.selector ≠ "read") :
    m.work? = none := by
  unfold work?
  split <;> first | contradiction | rfl

namespace Namespace

/-- An answer keeps the identity of its namespace and reports failures under it. -/
structure Answers {α : Type} (n : Namespace) (a : Answer α) : Prop where
  identity : a.after.identity = n.identity
  owner : ∀ d, a.outcome = .error d → d.owner = n.identity

theorem answers_refuse {α : Type} (n : Namespace) (operation subject message : String) :
    n.Answers (n.refuse operation subject message : Answer α) := by
  refine ⟨rfl, ?_⟩
  rintro d ⟨⟩
  rfl

theorem answers_attempt {α : Type} (n : Namespace) (operation subject : String)
    (body : ExceptT Script.Fault Script.Run α) : n.Answers (n.attempt operation subject body) := by
  unfold attempt
  split
  · exact ⟨rfl, nofun⟩
  · refine ⟨rfl, ?_⟩
    rintro d ⟨⟩
    rfl

theorem answers_evaluate (n : Namespace) (source : String) : n.Answers (n.evaluate source) := by
  unfold evaluate
  split
  · exact answers_refuse n ..
  · obtain ⟨identity, owner⟩ := answers_attempt n "eval" source (liftBytes (parenthesized source))
    dsimp only
    split
    · exact ⟨identity, nofun⟩
    · rename_i d failed
      refine ⟨identity, ?_⟩
      rintro _ ⟨⟩
      exact owner d failed

theorem answers_runStatements (n : Namespace) (operation subject : String) (bytes : Text.Utf8.Bytes) :
    n.Answers (n.runStatements operation subject bytes) := by
  unfold runStatements
  split
  · exact answers_refuse n ..
  · exact answers_attempt n ..

theorem answers_executeFile (n : Namespace) (files : Files.Tree) (path : String) :
    n.Answers (n.executeFile files path) := by
  unfold executeFile
  split
  · exact answers_refuse n ..
  · split
    · exact answers_runStatements n ..
    · exact answers_refuse n ..

theorem answers_importModule (n : Namespace) (modules : ModuleTable) (name : String) :
    n.Answers (n.importModule modules name) := by
  unfold importModule
  split
  · exact answers_refuse n ..
  · exact answers_attempt n ..

end Namespace

/-- A response of an owner: it keeps its identity, and all that it sends back is under it. -/
structure Owner.Responds (o : Owner) (r : Response) : Prop where
  identity : r.owner.identity = o.identity
  named : ∀ e ∈ r.events, e.owner = o.identity

namespace Owner

/-- An owner that is made takes one reference and one namespace, and the next identity. -/
theorem make_ok {l : Lifecycle} {s : Supply} {settings : OwnerSettings} {room : Room} {o : Owner}
    (coherent : l.Coherent) (made : (make l s settings room).result = .ok o) :
    (make l s settings room).lifecycle.Coherent ∧
      (make l s settings room).lifecycle.active = l.active + 1 ∧
      (make l s settings room).lifecycle.live = l.live + 1 ∧
      (make l s settings room).supply = s.take.2 ∧ o.identity = s.take.1 := by
  unfold make at made ⊢
  split at made
  · cases made
  · rename_i log k taken
    obtain ⟨_, _, active, live, _⟩ := Lifecycle.acquire_ok coherent taken
    split at made
    · rename_i n j more t created
      have created_coherent := (coherent.acquired taken).created created
      obtain ⟨_, rfl, rfl, identity⟩ := Lifecycle.createNamespace_ok created
      cases made
      exact ⟨created_coherent, active, congrArg (· + 1) live, rfl, identity⟩
    · cases made

/-- An owner that is refused leaves every count as it was; it may use up an identity. -/
theorem make_error {l : Lifecycle} {s : Supply} {settings : OwnerSettings} {room : Room}
    {e : LifecycleError} (coherent : l.Coherent) (failed : (make l s settings room).result = .error e) :
    (make l s settings room).lifecycle.Coherent ∧
      (make l s settings room).lifecycle.active = l.active ∧
      (make l s settings room).lifecycle.live = l.live ∧
      s.next ≤ (make l s settings room).supply.next := by
  unfold make at failed ⊢
  split at failed
  · rename_i k refused
    have alike := Lifecycle.acquire_error refused
    exact ⟨coherent.alike alike, alike.active, alike.live, Nat.le_refl _⟩
  · rename_i log k taken
    obtain ⟨_, _, active, live, _⟩ := Lifecycle.acquire_ok coherent taken
    split at failed
    · cases failed
    · rename_i refused
      refine ⟨(coherent.acquired taken).released, ?_, ?_, ?_⟩
      · rw [Lifecycle.release_active, active, Nat.add_sub_cancel]
      · rw [Lifecycle.release_live, live]
      · obtain rfl | rfl := Lifecycle.createNamespace_error refused
        · exact Nat.le_refl _
        · exact Nat.le_succ _

theorem make_settings {l : Lifecycle} (coherent : l.Coherent) (s : Supply) (settings : OwnerSettings)
    (room : Room) : (make l s settings room).lifecycle.settings = l.settings := by
  unfold make
  split
  · rename_i refused
    exact (Lifecycle.acquire_error refused).settings
  · rename_i taken
    obtain ⟨-, -, -, -, same, -⟩ := Lifecycle.acquire_ok coherent taken
    split
    · rename_i created
      obtain ⟨_, rfl, _, _⟩ := Lifecycle.createNamespace_ok created
      exact same
    · exact (Lifecycle.release_settings _).trans same

theorem responds_after {o : Owner} {r : Response} (responds : o.Responds r) (log : List Log.Entry) :
    o.Responds (after log r) := ⟨responds.identity, responds.named⟩

theorem responds_report {o p : Owner} {d : Diagnostic} (identity : p.identity = o.identity)
    (owner : d.owner = o.identity) : o.Responds (p.report d) := by
  refine ⟨identity, ?_⟩
  intro e member
  simp only [report, List.mem_singleton] at member
  subst member
  exact owner

theorem identity_follow {α : Type} (o : Owner) {a : Answer α} (answers : o.scripts.Answers a) :
    (o.follow a).identity = o.identity := answers.identity

theorem responds_finish (o : Owner) {a : Answer Unit} (answers : o.scripts.Answers a) :
    o.Responds (o.finish a) := by
  have identity := o.identity_follow answers
  unfold finish
  split
  · refine ⟨identity, ?_⟩
    intro e member
    simp only [List.mem_singleton] at member
    subst member
    exact identity
  · rename_i d failed
    exact responds_after (responds_report identity (answers.owner d failed)) _

theorem responds_evaluate (o : Owner) (source : String) : o.Responds (o.evaluate source) := by
  have answers := o.scripts.answers_evaluate source
  have identity := o.identity_follow answers
  unfold evaluate
  dsimp only
  split
  · refine ⟨identity, ?_⟩
    intro e member
    simp only [List.mem_append, List.mem_map, List.mem_singleton] at member
    obtain ⟨r, _, rfl⟩ | rfl := member <;> exact identity
  · rename_i d failed
    exact responds_after (responds_report identity (answers.owner d failed)) _

theorem responds_execute (o : Owner) (source : String) : o.Responds (o.execute source) :=
  o.responds_finish (o.scripts.answers_runStatements ..)

theorem responds_executeFile (o : Owner) (s : Surroundings) (path : String) :
    o.Responds (o.executeFile s path) :=
  o.responds_finish (o.scripts.answers_executeFile ..)

theorem responds_importModule (o : Owner) (s : Surroundings) (name : String) :
    o.Responds (o.importModule s name) := by
  have responds := o.responds_finish (o.scripts.answers_importModule s.modules name)
  unfold importModule
  dsimp only
  split
  · exact ⟨responds.identity, responds.named⟩
  · exact responds

theorem responds_saveEditor (o : Owner) (text : Text.Utf8.Bytes) : o.Responds (o.saveEditor text) := by
  have answers := (o.closeEditor text).scripts.answers_runStatements "edsave"
    ((o.closeEditor text).settings.file.getD "")
    (Text.Utf8.ofString (o.closeEditor text).code.toSource)
  have identity : ((o.closeEditor text).follow _).identity = o.identity :=
    (o.closeEditor text).identity_follow answers
  unfold saveEditor
  dsimp only
  split
  · exact ⟨identity, by simp⟩
  · rename_i d failed
    exact responds_after (responds_report identity (answers.owner d failed)) _

/-- The name of the file that is looked for: the one that is given, unless it is empty, or else the one
that is remembered. -/
def sought (o : Owner) (name : Option String) : Option String :=
  (name.filter fun n => !n.isEmpty).or o.settings.file

def holding (o : Owner) (name : String) (text : Text.Utf8.Bytes) : Owner :=
  { o with settings := { o.settings with file := some name }, code := ⟨text⟩ }

/-- A read in one piece: it fails before it changes anything, or else it takes name and text at once. -/
theorem read_eq (o : Owner) (s : Surroundings) (name : Option String) :
    o.read s name =
      match o.sought name with
      | none => .error (.make o.identity "read" "" "no file to read")
      | some name =>
        match Files.locate s.files s.roots name with
        | .error e => .error (.make o.identity "read" name e.message)
        | .ok path =>
          match Files.readText s.files path with
          | .error e => .error (.make o.identity "read" name e.message)
          | .ok text => .ok ⟨o.holding name text, path,
              o.note ("read " ++ path ++ " (" ++ toString text.length ++ " bytes)")⟩ := by
  unfold read sought
  cases (name.filter fun n => !n.isEmpty).or o.settings.file with
  | none => rfl
  | some name =>
    cases located : Files.locate s.files s.roots name with
    | error e => simp only [located, bind, Except.bind]
    | ok path =>
      cases readable : Files.readText s.files path with
      | error e => simp only [located, readable, bind, Except.bind]
      | ok text =>
        simp only [located, readable, bind, Except.bind]
        rfl

theorem read_error {o : Owner} {s : Surroundings} {name : Option String} {d : Diagnostic}
    (failed : o.read s name = .error d) : d.owner = o.identity := by
  rw [read_eq] at failed
  split at failed
  · cases failed
    rfl
  · split at failed
    · cases failed
      rfl
    · split at failed <;> cases failed
      rfl

theorem read_ok {o : Owner} {s : Surroundings} {name : Option String} {r : Reading}
    (ok : o.read s name = .ok r) : r.owner.identity = o.identity := by
  rw [read_eq] at ok
  split at ok
  · cases ok
  · split at ok
    · cases ok
    · split at ok <;> cases ok
      rfl

theorem responds_runTask (o : Owner) (s : Surroundings) (task : DeferredTask) :
    o.Responds (o.runTask s task) := by
  cases task with
  | read name =>
    unfold runTask
    dsimp only
    split
    · rename_i r ok
      exact ⟨read_ok ok, by simp⟩
    · rename_i d failed
      exact responds_report rfl (read_error failed)
  | load name =>
    unfold runTask
    dsimp only
    split
    · rename_i r ok
      obtain ⟨identity, named⟩ := r.owner.responds_executeFile s r.path
      rw [read_ok ok] at identity named
      exact responds_after ⟨identity, named⟩ _
    · rename_i d failed
      exact responds_report rfl (read_error failed)

@[simp] theorem tasks_finish (o : Owner) (a : Answer Unit) : (o.finish a).tasks = [] := by
  unfold finish
  split <;> rfl

@[simp] theorem tasks_evaluate (o : Owner) (source : String) : (o.evaluate source).tasks = [] := by
  unfold evaluate
  dsimp only
  split <;> rfl

@[simp] theorem tasks_importModule (o : Owner) (s : Surroundings) (name : String) :
    (o.importModule s name).tasks = [] := by
  unfold importModule
  dsimp only
  split <;> simp

@[simp] theorem tasks_saveEditor (o : Owner) (text : Text.Utf8.Bytes) :
    (o.saveEditor text).tasks = [] := by
  unfold saveEditor
  dsimp only
  split <;> rfl

@[simp] theorem tasks_runTask (o : Owner) (s : Surroundings) (task : DeferredTask) :
    (o.runTask s task).tasks = [] := by
  unfold runTask
  split <;> split <;> simp [after, report, executeFile]

theorem noArgs_error {o : Owner} {m : Message} {d : Diagnostic} (failed : o.noArgs m = .error d) :
    ∃ text, d = o.fault m text := by
  unfold noArgs at failed
  split at failed <;> cases failed
  exact ⟨_, rfl⟩

theorem source_error {o : Owner} {m : Message} {d : Diagnostic} (failed : o.source m = .error d) :
    ∃ text, d = o.fault m text := by
  unfold source at failed
  split at failed <;> cases failed
  exact ⟨_, rfl⟩

theorem optionalSymbol_cases (o : Owner) (m : Message) :
    (m.args = [] ∧ o.optionalSymbol m = .ok none) ∨
      (∃ name, m.args = [.symbol name] ∧ o.optionalSymbol m = .ok (some name)) ∨
      ((∀ name, m.args ≠ [.symbol name]) ∧ m.args ≠ [] ∧
        ∃ text, o.optionalSymbol m = .error (o.fault m text)) := by
  unfold optionalSymbol
  split
  · rename_i none
    exact .inl ⟨none, rfl⟩
  · rename_i name one
    exact .inr (.inl ⟨name, one, rfl⟩)
  · rename_i other wrong one
    refine .inr (.inr ⟨?_, by simp [one], _, rfl⟩)
    intro name same
    rw [one, List.cons.injEq] at same
    exact wrong name same.1
  · rename_i empty symbol many
    refine .inr (.inr ⟨?_, ?_, _, rfl⟩)
    · intro name same
      exact many _ same
    · intro same
      exact empty same

theorem symbol_cases (o : Owner) (m : Message) :
    (∃ name, m.args = [.symbol name] ∧ o.symbol m = .ok name) ∨
      ((∀ name, m.args ≠ [.symbol name]) ∧ ∃ text, o.symbol m = .error (o.fault m text)) := by
  unfold symbol
  obtain ⟨none, read⟩ | ⟨name, one, read⟩ | ⟨other, _, text, read⟩ := o.optionalSymbol_cases m
  · rw [read]
    exact .inr ⟨by simp [none], _, rfl⟩
  · rw [read]
    exact .inl ⟨name, one, rfl⟩
  · rw [read]
    exact .inr ⟨other, text, rfl⟩

theorem symbol_error {o : Owner} {m : Message} {d : Diagnostic} (failed : o.symbol m = .error d) :
    ∃ text, d = o.fault m text := by
  obtain ⟨name, _, read⟩ | ⟨_, text, read⟩ := o.symbol_cases m
  · rw [read] at failed
    cases failed
  · rw [read] at failed
    cases failed
    exact ⟨text, rfl⟩

inductive Performs (o : Owner) (s : Surroundings) (m : Message) : Except Diagnostic Response → Prop
  | defers (task : DeferredTask) (work : m.work? = some task) :
      Performs o s m (.ok { owner := o, tasks := [task] })
  | replies (output : Output) (none : m.work? = none) :
      Performs o s m (.ok { owner := o, events := [o.emit .reply output] })
  | imports (name : String) (none : m.work? = none) : Performs o s m (.ok (o.importModule s name))
  | evaluates (source : String) (none : m.work? = none) : Performs o s m (.ok (o.evaluate source))
  | executes (source : String) (none : m.work? = none) : Performs o s m (.ok (o.execute source))
  | runs (path : String) (none : m.work? = none) : Performs o s m (.ok (o.executeFile s path))
  | refuses (text : String) (none : m.work? = none) : Performs o s m (.error (o.fault m text))

theorem performs_map {α : Type} {o : Owner} {s : Surroundings} {m : Message}
    {parsed : Except Diagnostic α} {f : α → Response} (none : m.work? = none)
    (faults : ∀ d, parsed = .error d → ∃ text, d = o.fault m text)
    (does : ∀ a, o.Performs s m (.ok (f a))) : o.Performs s m (parsed.map f) := by
  cases parsed with
  | ok a => exact does a
  | error d =>
    obtain ⟨text, rfl⟩ := faults d rfl
    exact .refuses text none

theorem perform_defers (o : Owner) (s : Surroundings) {m : Message}
    (asks : m.selector = "load" ∨ m.selector = "read") :
    (∃ task, m.work? = some task ∧ o.perform s m = .ok { owner := o, tasks := [task] }) ∨
      (m.work? = none ∧ ∃ text, o.perform s m = .error (o.fault m text)) := by
  rcases asks with load | read
  · obtain ⟨name, one, parsed⟩ | ⟨other, text, parsed⟩ := o.symbol_cases m
    · refine .inl ⟨.load name, by simp [Message.work?, load, one], ?_⟩
      simp only [perform, load, parsed, Except.map]
    · refine .inr ⟨?_, text, by simp only [perform, load, parsed, Except.map]⟩
      unfold Message.work?
      split <;> simp_all
  · obtain ⟨empty, parsed⟩ | ⟨name, one, parsed⟩ | ⟨other, filled, text, parsed⟩ :=
      o.optionalSymbol_cases m
    · refine .inl ⟨.read none, by simp [Message.work?, read, empty], ?_⟩
      simp only [perform, read, parsed, Except.map]
    · refine .inl ⟨.read (some name), by simp [Message.work?, read, one], ?_⟩
      simp only [perform, read, parsed, Except.map]
    · refine .inr ⟨?_, text, by simp only [perform, read, parsed, Except.map]⟩
      unfold Message.work?
      split <;> simp_all

theorem performs (o : Owner) (s : Surroundings) (m : Message) : o.Performs s m (o.perform s m) := by
  by_cases asks : m.selector = "load" ∨ m.selector = "read"
  · obtain ⟨task, work, does⟩ | ⟨none, text, does⟩ := o.perform_defers s asks
    · rw [does]
      exact .defers task work
    · rw [does]
      exact .refuses text none
  · have none := m.work?_eq_none (fun load => asks (.inl load)) (fun read => asks (.inr read))
    unfold perform
    split
    · exact performs_map none (fun _ => noArgs_error) fun _ => .replies _ none
    · exact performs_map none (fun _ => noArgs_error) fun _ => .replies _ none
    · exact performs_map none (fun _ => symbol_error) fun name => .imports name none
    · exact performs_map none (fun _ => source_error) fun source => .evaluates source none
    · exact performs_map none (fun _ => source_error) fun source => .executes source none
    · exact performs_map none (fun _ => symbol_error) fun path => .runs path none
    · rename_i load
      exact absurd (.inl load) asks
    · rename_i read
      exact absurd (.inr read) asks
    · exact .refuses _ none

theorem responds_handle (o : Owner) (s : Surroundings) (m : Message) : o.Responds (o.handle s m) := by
  have performs := o.performs s m
  unfold handle
  apply responds_after
  generalize o.perform s m = outcome at performs
  cases performs with
  | defers => exact ⟨rfl, by simp⟩
  | replies =>
    refine ⟨rfl, ?_⟩
    intro e member
    simp only [List.mem_singleton] at member
    subst member
    rfl
  | imports name => exact o.responds_importModule s name
  | evaluates source => exact o.responds_evaluate source
  | executes source => exact o.responds_execute source
  | runs path => exact o.responds_executeFile s path
  | refuses => exact responds_report rfl rfl

theorem tasks_handle (o : Owner) (s : Surroundings) (m : Message) :
    (o.handle s m).tasks = m.work?.toList := by
  have performs := o.performs s m
  unfold handle
  generalize o.perform s m = outcome at performs
  cases performs <;> simp_all [after, execute, executeFile, report]

/-- Work is put off in silence; a refusal is reported. -/
theorem handle_defers (o : Owner) (s : Surroundings) {m : Message}
    (asks : m.selector = "load" ∨ m.selector = "read") :
    (∃ task, m.work? = some task ∧ (o.handle s m).events = []) ∨
      (m.work? = none ∧ ∃ text,
        (o.handle s m).events = [.reported (.make o.identity m.selector "" text)]) := by
  obtain ⟨task, work, does⟩ | ⟨none, text, does⟩ := o.perform_defers s asks
  · exact .inl ⟨task, work, by simp only [handle, does, after]⟩
  · exact .inr ⟨none, text, by simp only [handle, does, after, report, fault]⟩

theorem handle_count (o : Owner) (s : Surroundings) {m : Message} (selector : m.selector = "count")
    (bare : m.args = []) :
    (o.handle s m).events = [o.emit .reply (.value (.scalar (.int (Int64.ofNat s.active))))] := by
  simp [handle, perform, selector, noArgs, bare, after, Except.map]

end Owner

end Patchbay
