import Patchbay.Proofs.Host.Shared
import Mathlib.Data.Prod.Basic

/-!
How the handling of a message ends. A message that is understood asks for a reply, for work in a later
turn or for work of the engine, and each of these ends in its own way; every other message ends in a
report of what is wrong with it. What scripts compute is left open: an answer of the engine is taken as
it comes.
-/
namespace Patchbay

inductive Request
  | evaluate (source : String)
  | execute (source : String)
  | executeFile (path : String)
  | importModule (name : String)

namespace Request

/-- The selector that asks for the work, under which its failures are reported. -/
def operation : Request → String
  | evaluate _ => "eval"
  | execute _ => "exec"
  | executeFile _ => "execfile"
  | importModule _ => "import"

def subject : Request → String
  | evaluate source | execute source => source
  | executeFile path => path
  | importModule name => name

end Request

inductive Demand
  | bang
  | count
  | defer (task : DeferredTask)
  | run (r : Request)

namespace Message

def demand? (m : Message) : Option Demand :=
  match m.selector, m.args with
  | "bang", [] => some .bang
  | "count", [] => some .count
  | "import", [.symbol name] => some (.run (.importModule name))
  | "eval", _ :: _ => some (.run (.evaluate m.source))
  | "exec", _ :: _ => some (.run (.execute m.source))
  | "execfile", [.symbol path] => some (.run (.executeFile path))
  | "load", [.symbol name] => some (.defer (.load name))
  | "read", [] => some (.defer (.read none))
  | "read", [.symbol name] => some (.defer (.read (some name)))
  | _, _ => none

def wrongSymbol : List Atom → String
  | [] => "missing argument"
  | [other] => "expected a symbol, got '" ++ other.text ++ "'"
  | _ => "too many arguments"

def complaint (m : Message) : String :=
  match m.selector with
  | "bang" | "count" => "unexpected arguments"
  | "eval" | "exec" => "missing argument"
  | "import" | "execfile" | "load" | "read" => wrongSymbol m.args
  | _ => "no method for message"

end Message

namespace Owner

def meet (o : Owner) (s : Surroundings) : Demand → Response
  | .bang => { owner := o, events := [o.emit .reply .bang] }
  | .count => { owner := o, events := [o.emit .reply (.value (.scalar (.int (Int64.ofNat s.active))))] }
  | .defer task => { owner := o, tasks := [task] }
  | .run (.evaluate source) => o.evaluate source
  | .run (.execute source) => o.execute source
  | .run (.executeFile path) => o.executeFile s path
  | .run (.importModule name) => o.importModule s name

theorem perform_demand (o : Owner) (s : Surroundings) (m : Message) :
    o.perform s m = match m.demand? with
      | some d => .ok (o.meet s d)
      | none => .error (o.fault m m.complaint) := by
  obtain ⟨selector, args, source⟩ := m
  unfold perform
  split
  case h_9 =>
    rename_i unknown
    have asked : Message.demand? ⟨selector, args, source⟩ = none := by
      unfold Message.demand?
      split <;> first | contradiction | rfl
    have complaint : Message.complaint ⟨selector, args, source⟩ = "no method for message" := by
      unfold Message.complaint
      split <;> first | contradiction | rfl
    rw [asked, complaint]
  -- The arguments are none, one or more, and a single one is a symbol or not.
  all_goals
    rename_i known
    change selector = _ at known
    subst known
    obtain _ | ⟨first, _ | ⟨second, rest⟩⟩ := args
  all_goals try rfl
  all_goals cases first <;> rfl

theorem handle_understood {m : Message} {d : Demand} (asked : m.demand? = some d) (o : Owner)
    (s : Surroundings) : o.handle s m = after (o.note m.text) (o.meet s d) := by
  simp only [handle, perform_demand, asked]

theorem handle_refused {m : Message} (unknown : m.demand? = none) (o : Owner) (s : Surroundings) :
    o.handle s m = after (o.note m.text) (o.report (o.fault m m.complaint)) := by
  simp only [handle, perform_demand, unknown]

end Owner

def Answer.valueless (a : Answer Unit) : Answer (Option Reply) :=
  ⟨a.outcome.map fun _ => none, a.after, a.log⟩

theorem Answer.valueless_error {a : Answer Unit} {d : Diagnostic} :
    a.valueless.outcome = .error d ↔ a.outcome = .error d := by
  cases outcome : a.outcome <;> simp [valueless, outcome, Except.map]

/-- A failure is reported for an attempt and what it was applied to. -/
structure Answer.Blames {α : Type} (a : Answer α) (operation subject : String) : Prop where
  failure : ∀ d, a.outcome = .error d → d.operation = operation ∧ d.subject = subject

theorem Answer.Blames.valueless {a : Answer Unit} {operation subject : String}
    (blames : a.Blames operation subject) : a.valueless.Blames operation subject := by
  constructor
  intro d failed
  exact blames.failure d (Answer.valueless_error.mp failed)

namespace Namespace

def answer (n : Namespace) (s : Surroundings) : Request → Answer (Option Reply)
  | .evaluate source => n.evaluate source
  | .execute source => (n.execute source).valueless
  | .executeFile path => (n.executeFile s.files path).valueless
  | .importModule name => (n.importModule s.modules name).valueless

theorem answers_valueless {n : Namespace} {a : Answer Unit} (answers : n.Answers a) :
    n.Answers a.valueless := by
  refine ⟨answers.identity, ?_⟩
  intro d failed
  exact answers.owner d (Answer.valueless_error.mp failed)

theorem answers_answer (n : Namespace) (s : Surroundings) (r : Request) : n.Answers (n.answer s r) := by
  cases r with
  | evaluate source => exact n.answers_evaluate source
  | execute source => exact answers_valueless (n.answers_runStatements ..)
  | executeFile path => exact answers_valueless (n.answers_executeFile ..)
  | importModule name => exact answers_valueless (n.answers_importModule ..)

theorem blames_refuse {α : Type} (n : Namespace) (operation subject message : String) :
    (n.refuse operation subject message : Answer α).Blames operation subject := by
  constructor
  rintro d ⟨⟩
  exact ⟨rfl, rfl⟩

theorem blames_attempt {α : Type} (n : Namespace) (operation subject : String)
    (body : ExceptT Script.Fault Script.Run α) :
    (n.attempt operation subject body).Blames operation subject := by
  constructor
  unfold attempt
  split
  · exact nofun
  · rintro d ⟨⟩
    exact ⟨rfl, rfl⟩

theorem blames_evaluate (n : Namespace) (source : String) :
    (n.evaluate source).Blames "eval" source := by
  unfold evaluate
  split
  · exact n.blames_refuse ..
  · have blames := n.blames_attempt "eval" source (liftBytes (parenthesized source))
    constructor
    dsimp only
    split
    · exact nofun
    · rename_i d failed
      rintro _ ⟨⟩
      exact blames.failure d failed

theorem blames_runStatements (n : Namespace) (operation subject : String) (bytes : Text.Utf8.Bytes) :
    (n.runStatements operation subject bytes).Blames operation subject := by
  unfold runStatements
  split
  · exact n.blames_refuse ..
  · exact n.blames_attempt ..

theorem blames_executeFile (n : Namespace) (files : Files.Tree) (path : String) :
    (n.executeFile files path).Blames "execfile" path := by
  unfold executeFile
  split
  · exact n.blames_refuse ..
  · split
    · exact n.blames_runStatements ..
    · exact n.blames_refuse ..

theorem blames_importModule (n : Namespace) (modules : ModuleTable) (name : String) :
    (n.importModule modules name).Blames "import" name := by
  unfold importModule
  split
  · exact n.blames_refuse ..
  · exact n.blames_attempt ..

theorem blames_answer (n : Namespace) (s : Surroundings) (r : Request) :
    (n.answer s r).Blames r.operation r.subject := by
  cases r with
  | evaluate source => exact n.blames_evaluate source
  | execute source => exact (n.blames_runStatements ..).valueless
  | executeFile path => exact (n.blames_executeFile ..).valueless
  | importModule name => exact (n.blames_importModule ..).valueless

end Namespace

/-- How the handling of a message ends. -/
inductive Ending
  | deferred (task : DeferredTask)
  | replied (output : Output)
  | signalled
  | evaluated (value : Reply)
  | reported (d : Diagnostic)

namespace Ending

/-- How work of the engine ends: it is told that it is done, after its value if it has one. -/
def ofOutcome : Except Diagnostic (Option Reply) → Ending
  | .ok none => signalled
  | .ok (some value) => evaluated value
  | .error d => reported d

def events (i : Identity) : Ending → List Event
  | deferred _ => []
  | replied output => [.emitted i .reply output]
  | signalled => [.emitted i .signal .bang]
  | evaluated value => [.emitted i .reply (.value value), .emitted i .signal .bang]
  | reported d => [.reported d]

def tasks : Ending → List DeferredTask
  | deferred task => [task]
  | _ => []

theorem ext_shown {i : Identity} {e f : Ending} (events : e.events i = f.events i)
    (tasks : e.tasks = f.tasks) : e = f := by
  cases e <;> cases f <;> simp_all [Ending.events, Ending.tasks]

theorem reported_mem {i : Identity} {e : Ending} {d : Diagnostic} :
    .reported d ∈ e.events i ↔ e = .reported d := by
  cases e <;> simp [Ending.events, eq_comm]

end Ending

namespace Owner

/-- How a message ends at an owner, and the namespace that is left. -/
inductive Ends (o : Owner) (s : Surroundings) (m : Message) : Ending → Namespace → Prop
  | deferred {task : DeferredTask} (asked : m.demand? = some (.defer task)) :
      Ends o s m (.deferred task) o.scripts
  | banged (asked : m.demand? = some .bang) : Ends o s m (.replied .bang) o.scripts
  | counted (asked : m.demand? = some .count) :
      Ends o s m (.replied (.value (.scalar (.int (Int64.ofNat s.active))))) o.scripts
  | ran {r : Request} (asked : m.demand? = some (.run r)) :
      Ends o s m (.ofOutcome (o.scripts.answer s r).outcome) (o.scripts.answer s r).after
  | refused (unknown : m.demand? = none) :
      Ends o s m (.reported (.make o.identity m.selector "" m.complaint)) o.scripts

/-- A response that shows an ending and leaves a namespace, and keeps the rest of its owner. -/
structure Shows (o : Owner) (r : Response) (e : Ending) (n : Namespace) : Prop where
  owner : r.owner = { o with scripts := n }
  events : r.events = e.events o.identity
  tasks : r.tasks = e.tasks

theorem shows_finish (o : Owner) {a : Answer Unit} (answers : o.scripts.Answers a) :
    o.Shows (o.finish a) (.ofOutcome a.valueless.outcome) a.after := by
  have identity := o.identity_follow answers
  unfold finish
  split
  · rename_i done
    have outcome : a.valueless.outcome = .ok none := by simp [Answer.valueless, done, Except.map]
    rw [outcome]
    refine ⟨rfl, ?_, rfl⟩
    simp only [signal, emit, identity, Ending.ofOutcome, Ending.events]
  · rename_i d failed
    have outcome : a.valueless.outcome = .error d := by simp [Answer.valueless, failed, Except.map]
    rw [outcome]
    exact ⟨rfl, rfl, rfl⟩

theorem shows_evaluate (o : Owner) (source : String) :
    o.Shows (o.evaluate source) (.ofOutcome (o.scripts.evaluate source).outcome)
      (o.scripts.evaluate source).after := by
  have identity := o.identity_follow (o.scripts.answers_evaluate source)
  unfold evaluate
  dsimp only
  split
  · rename_i value done
    rw [done]
    refine ⟨rfl, ?_, by cases value <;> rfl⟩
    cases value <;> simp [signal, emit, identity, Ending.ofOutcome, Ending.events]
  · rename_i d failed
    rw [failed]
    exact ⟨rfl, rfl, rfl⟩

theorem shows_importModule (o : Owner) (s : Surroundings) (name : String) :
    o.Shows (o.importModule s name) (.ofOutcome (o.scripts.answer s (.importModule name)).outcome)
      (o.scripts.answer s (.importModule name)).after := by
  have shows := o.shows_finish (o.scripts.answers_importModule s.modules name)
  unfold importModule
  dsimp only
  split
  · exact ⟨shows.owner, shows.events, shows.tasks⟩
  · exact shows

theorem shows_run (o : Owner) (s : Surroundings) (r : Request) :
    o.Shows (o.meet s (.run r)) (.ofOutcome (o.scripts.answer s r).outcome)
      (o.scripts.answer s r).after := by
  cases r with
  | evaluate source => exact o.shows_evaluate source
  | execute source => exact o.shows_finish (o.scripts.answers_runStatements ..)
  | executeFile path => exact o.shows_finish (o.scripts.answers_executeFile ..)
  | importModule name => exact o.shows_importModule s name

theorem handle_ends (o : Owner) (s : Surroundings) (m : Message) :
    ∃ e n, o.Ends s m e n ∧ o.Shows (o.handle s m) e n := by
  cases asked : m.demand? with
  | none =>
    rw [handle_refused asked]
    exact ⟨_, _, .refused asked, rfl, rfl, rfl⟩
  | some d =>
    rw [handle_understood asked]
    cases d with
    | bang => exact ⟨_, _, .banged asked, rfl, rfl, rfl⟩
    | count => exact ⟨_, _, .counted asked, rfl, rfl, rfl⟩
    | defer task => exact ⟨_, _, .deferred asked, rfl, rfl, rfl⟩
    | run r =>
      obtain ⟨owner, events, tasks⟩ := o.shows_run s r
      exact ⟨_, _, .ran asked, owner, events, tasks⟩

theorem Ends.identity {o : Owner} {s : Surroundings} {m : Message} {e : Ending} {n : Namespace}
    (ends : o.Ends s m e n) : n.identity = o.identity := by
  cases ends with
  | deferred | banged | counted | refused => rfl
  | ran => exact (o.scripts.answers_answer s _).identity

theorem operation_of_demand {m : Message} {r : Request} (asked : m.demand? = some (.run r)) :
    r.operation = m.selector := by
  unfold Message.demand? at asked
  split at asked <;> cases asked <;> simp_all [Request.operation]

/-- Work that is applied to nothing is refused in the same words everywhere. -/
theorem meet_empty {r : Request} (empty : r.subject = "") (s : Surroundings) :
    ∃ text, ∀ o : Owner, o.meet s (.run r) = o.report (.make o.identity r.operation "" text) := by
  cases r <;> cases empty <;> exact ⟨_, fun _ => rfl⟩

/-- A failure is reported under the selector. One that names nothing is reported by every owner in the
same words, whatever its namespace holds. -/
theorem Ends.fault {o : Owner} {s : Surroundings} {m : Message} {d : Diagnostic} {n : Namespace}
    (ends : o.Ends s m (.reported d) n) :
    d.operation = m.selector ∧ (d.subject = "" → ∃ text, ∀ p : Owner,
      p.handle s m = after (p.note m.text) (p.report (.make p.identity m.selector "" text))) := by
  generalize shown : Ending.reported d = e at ends
  cases ends with
  | deferred | banged | counted => cases shown
  | refused unknown =>
    cases shown
    exact ⟨rfl, fun _ => ⟨m.complaint, fun p => handle_refused unknown p s⟩⟩
  | @ran r asked =>
    have failed : (o.scripts.answer s r).outcome = .error d := by
      generalize (o.scripts.answer s r).outcome = outcome at shown
      unfold Ending.ofOutcome at shown
      split at shown <;> cases shown
      rfl
    obtain ⟨operation, subject⟩ := (o.scripts.blames_answer s r).failure d failed
    have selector := operation_of_demand asked
    refine ⟨operation.trans selector, ?_⟩
    intro empty
    obtain ⟨text, reports⟩ := meet_empty (subject ▸ empty) s
    refine ⟨text, ?_⟩
    intro p
    rw [handle_understood asked, reports, selector]

def on (o : Owner) (x : Script.Machine) : Owner := { o with scripts := { o.scripts with machine := x } }

end Owner

namespace Host

theorem settings_send (h : Host) (i j : Identity) (m : Message) :
    ((h.send i m).host.owner? j).map (fun o => (o.settings, o.code)) =
      (h.owner? j).map fun o => (o.settings, o.code) := by
  unfold send
  cases found : h.owner? i with
  | none => rfl
  | some o =>
    obtain ⟨e, n, _, owner, _, _⟩ := o.handle_ends h.surroundings m
    rw [owner?_absorb]
    split
    · rename_i same
      subst same
      rw [owner, found]
      rfl
    · rfl

theorem send_found {h : Host} {i : Identity} {o : Owner} (found : h.owner? i = some o) (m : Message) :
    h.send i m = { h.absorb i (o.handle h.surroundings m) with result := true } := by
  simp only [send, found]

/-- A response that leaves its owner as it was, and puts nothing off, leaves the host as it was. -/
theorem absorb_still {h : Host} {i : Identity} {o : Owner} (found : h.owner? i = some o) {r : Response}
    (owner : r.owner = o) (idle : r.tasks = []) : (h.absorb i r).host = h := by
  simp only [absorb, update, owner, idle, List.foldl_nil, Roster.replace_self found]

end Host

end Patchbay
