import Patchbay.Proofs.Owner

/-!
What an owner writes into the log. Every report is written down where it is made, under the label of
the owner, and its traceback behind it when the owner is debugged; all else that is written is of a few
kinds, of which only notes hang on the debug flag. What scripts post is taken as it comes.
-/
namespace Patchbay

/-- How an owner shows in the log. -/
structure Voice where
  identity : Identity
  label : String
  debug : Bool
  deriving Inhabited

def Owner.voice (o : Owner) : Voice := ⟨o.identity, o.label, o.settings.debug⟩

def Voice.account (v : Voice) (d : Diagnostic) : List Log.Entry :=
  .failure v.label d.text :: if v.debug then d.traceback.toList.map (.traceback v.label) else []

def Event.diagnostic? : Event → Option Diagnostic
  | .emitted .. => none
  | .reported d => some d

namespace Log

def Entry.isOwnError (e : Entry) : Bool := e.level == .error && !e.fromScript

/-- What may be written, apart from reports, while someone is at work, or nobody. -/
inductive Aside (doer : Option Voice) : Entry → Prop
  | initialized (modules : Nat) : Aside doer (.initialized modules)
  | acquired (active : Nat) : Aside doer (.acquired active)
  | released (active : Nat) : Aside doer (.released active)
  | finalized : Aside doer .finalized
  | unmatchedRelease : Aside doer .unmatchedRelease
  | namespaceCreated (i : Identity) : Aside doer (.namespaceCreated i)
  | namespaceReleased (i : Identity) : Aside doer (.namespaceReleased i)
  | longList (length : Nat) : Aside doer (.longList length)
  | deferred (i : Identity) (task : String) : Aside doer (.deferred i task)
  | taskDropped (i : Identity) (task : String) : Aside doer (.taskDropped i task)
  | unknownOwner (i : Identity) : Aside doer (.unknownOwner i)
  | posted {v : Voice} (does : doer = some v) (isError : Bool) (text : String) :
      Aside doer (.posted v.identity isError text)
  | note {v : Voice} (does : doer = some v) (debugged : v.debug = true) (text : String) :
      Aside doer (.note v.label text)

theorem Aside.not_isOwnError {doer : Option Voice} {e : Entry} (aside : Aside doer e) :
    e.isOwnError = false := by
  cases aside with
  | posted _ isError => cases isError <;> rfl
  | _ => rfl

/-- What is noted of the work of an owner that is not debugged: what its scripts post, and that the
interpreter starts or ends. -/
theorem Aside.info {doer : Option Voice} {e : Entry} (aside : Aside doer e)
    (quiet : ∀ v, doer = some v → v.debug = false) (info : e.level = .info) :
    (∃ modules, e = .initialized modules) ∨ e = .finalized ∨
      ∃ v text, doer = some v ∧ e = .posted v.identity false text := by
  cases aside with
  | initialized modules => exact .inl ⟨modules, rfl⟩
  | finalized => exact .inr (.inl rfl)
  | posted does isError text =>
    cases isError with
    | false => exact .inr (.inr ⟨_, text, does, rfl⟩)
    | true => cases info
  | note does debugged =>
    rw [quiet _ does] at debugged
    cases debugged
  | _ => cases info

end Log

/-- A log that goes with what is sent back: each report is accounted for under the voice of its owner,
in one piece and in the order in which it was sent, and all else that is written is allowed. -/
inductive Recorded (voice : Identity → Voice) (allowed : Log.Entry → Prop) :
    List Event → List Log.Entry → Prop
  | nil : Recorded voice allowed [] []
  | emitted (i : Identity) (channel : Channel) (output : Output) {events : List Event}
      {log : List Log.Entry} (rest : Recorded voice allowed events log) :
      Recorded voice allowed (.emitted i channel output :: events) log
  | reported (d : Diagnostic) {events : List Event} {log : List Log.Entry}
      (rest : Recorded voice allowed events log) :
      Recorded voice allowed (.reported d :: events) ((voice d.owner).account d ++ log)
  | aside {e : Log.Entry} (passes : allowed e) {events : List Event} {log : List Log.Entry}
      (rest : Recorded voice allowed events log) : Recorded voice allowed events (e :: log)

namespace Recorded

variable {voice : Identity → Voice} {allowed : Log.Entry → Prop} {events later : List Event}
  {log more : List Log.Entry}

theorem mono {other : Log.Entry → Prop} (recorded : Recorded voice allowed events log)
    (wider : ∀ e, allowed e → other e) : Recorded voice other events log := by
  induction recorded with
  | nil => exact .nil
  | emitted i channel output _ ih => exact .emitted i channel output ih
  | reported d _ ih => exact .reported d ih
  | aside passes _ ih => exact .aside (wider _ passes) ih

theorem append (first : Recorded voice allowed events log) (second : Recorded voice allowed later more) :
    Recorded voice allowed (events ++ later) (log ++ more) := by
  induction first with
  | nil => exact second
  | emitted i channel output _ ih => exact .emitted i channel output ih
  | reported d _ ih =>
    rw [List.append_assoc]
    exact .reported d ih
  | aside passes _ ih => exact .aside passes ih

theorem asides (all : ∀ e ∈ log, allowed e) : Recorded voice allowed [] log := by
  induction log with
  | nil => exact .nil
  | cons e log ih => exact .aside (all e (.head _)) (ih fun x member => all x (.tail _ member))

theorem before (all : ∀ e ∈ more, allowed e) (recorded : Recorded voice allowed events log) :
    Recorded voice allowed events (more ++ log) := (asides all).append recorded

theorem behind (recorded : Recorded voice allowed events log) (all : ∀ e ∈ more, allowed e) :
    Recorded voice allowed events (log ++ more) := by
  have both := recorded.append (asides all)
  rwa [List.append_nil] at both

theorem emissions (none : ∀ e ∈ events, e.diagnostic? = none) (recorded : Recorded voice allowed [] log) :
    Recorded voice allowed events log := by
  induction events with
  | nil => exact recorded
  | cons e events ih =>
    have left := ih fun x member => none x (.tail _ member)
    cases e with
    | emitted i channel output => exact .emitted i channel output left
    | reported d => cases none _ (.head _)

/-- The errors in the log are the reports, one for each and in their order. -/
theorem errors (recorded : Recorded voice allowed events log)
    (silent : ∀ e, allowed e → e.isOwnError = false) :
    log.filter Log.Entry.isOwnError =
      (events.filterMap Event.diagnostic?).map fun d => .failure (voice d.owner).label d.text := by
  induction recorded with
  | nil => rfl
  | emitted _ _ _ _ ih => exact ih
  | reported d _ ih =>
    have account : ((voice d.owner).account d).filter Log.Entry.isOwnError =
        [.failure (voice d.owner).label d.text] := by
      unfold Voice.account
      rw [List.filter_cons_of_pos rfl, List.cons.injEq, List.filter_eq_nil_iff]
      refine ⟨rfl, ?_⟩
      intro e member
      split at member
      · obtain ⟨trace, _, rfl⟩ := List.mem_map.mp member
        exact Bool.false_ne_true
      · cases member
    rw [List.filter_append, account, ih]
    rfl
  | aside passes _ ih => rw [List.filter_cons_of_neg (by simp [silent _ passes]), ih]

theorem allowed_of_info (recorded : Recorded voice allowed events log) {e : Log.Entry} (member : e ∈ log)
    (info : e.level = .info) : allowed e := by
  induction recorded with
  | nil => cases member
  | emitted _ _ _ _ ih => exact ih member
  | reported d _ ih =>
    rcases List.mem_append.mp member with account | later
    · exfalso
      rcases List.mem_cons.mp account with rfl | trace
      · cases info
      · split at trace
        · obtain ⟨_, _, rfl⟩ := List.mem_map.mp trace
          cases info
        · cases trace
    · exact ih later
  | aside passes _ ih =>
    rcases List.mem_cons.mp member with rfl | later
    · exact passes
    · exact ih later

end Recorded

namespace Namespace

open Log (Aside)

/-- All that an answer of a namespace writes is allowed to whoever has the namespace. -/
structure Writes {α : Type} (n : Namespace) (a : Answer α) : Prop where
  asides : ∀ v : Voice, v.identity = n.identity → ∀ e ∈ a.log, Aside (some v) e

variable (n : Namespace)

theorem writes_refuse {α : Type} (operation subject message : String) :
    n.Writes (n.refuse operation subject message : Answer α) := ⟨fun _ _ _ member => nomatch member⟩

theorem writes_drain {α : Type} {outcome : Except Diagnostic α} {m : Script.Machine} :
    n.Writes ⟨outcome, (drain { n with machine := m }).2, (drain { n with machine := m }).1⟩ := by
  constructor
  intro v named e member
  obtain ⟨p, _, rfl⟩ := List.mem_map.mp member
  rw [← named]
  exact .posted rfl p.isError p.text

theorem writes_attempt {α : Type} (operation subject : String)
    (body : ExceptT Script.Fault Script.Run α) : n.Writes (n.attempt operation subject body) := by
  unfold attempt
  split <;> exact n.writes_drain

theorem writes_evaluate (source : String) : n.Writes (n.evaluate source) := by
  unfold evaluate
  split
  · exact n.writes_refuse ..
  · obtain ⟨asides⟩ := n.writes_attempt "eval" source (liftBytes (parenthesized source))
    constructor
    intro v named e member
    dsimp only at member
    split at member
    · rcases List.mem_append.mp member with posted | long
      · exact asides v named e posted
      · obtain ⟨length, _, rfl⟩ := List.mem_map.mp long
        exact .longList length
    · exact asides v named e member

theorem writes_runStatements (operation subject : String) (bytes : Text.Utf8.Bytes) :
    n.Writes (n.runStatements operation subject bytes) := by
  unfold runStatements
  split
  · exact n.writes_refuse ..
  · exact n.writes_attempt ..

theorem writes_executeFile (files : Files.Tree) (path : String) :
    n.Writes (n.executeFile files path) := by
  unfold executeFile
  split
  · exact n.writes_refuse ..
  · split
    · exact n.writes_runStatements ..
    · exact n.writes_refuse ..

theorem writes_importModule (modules : ModuleTable) (name : String) :
    n.Writes (n.importModule modules name) := by
  unfold importModule
  split
  · exact n.writes_refuse ..
  · exact n.writes_attempt ..

end Namespace

namespace Owner

open Log (Aside)

/-- A response that keeps the voice of its owner and tells the log of all that it reports. -/
structure Tells (voice : Identity → Voice) (o : Owner) (r : Response) : Prop where
  kept : r.owner.voice = o.voice
  recorded : Recorded voice (Aside (some o.voice)) r.events r.log

theorem note_asides {o : Owner} {v : Voice} (same : o.voice = v) (text : String) :
    ∀ e ∈ o.note text, Aside (some v) e := by
  intro e member
  unfold note at member
  split at member
  · rename_i debugged
    rw [List.mem_singleton.mp member, ← same]
    exact .note rfl debugged text
  · cases member

theorem asides_noted (o : Owner) {v : Voice} (same : o.voice = v) (text : String) {log : List Log.Entry}
    (asides : ∀ e ∈ log, Aside (some v) e) : ∀ e ∈ o.note text ++ log, Aside (some v) e := fun e member =>
  (List.mem_append.mp member).elim (note_asides same text e) (asides e)

variable {voice : Identity → Voice} {o : Owner}

theorem Tells.after {r : Response} (tells : o.Tells voice r) {log : List Log.Entry}
    (asides : ∀ e ∈ log, Aside (some o.voice) e) : o.Tells voice (after log r) :=
  ⟨tells.kept, tells.recorded.before asides⟩

theorem tells_report (known : voice o.identity = o.voice) {p : Owner} (same : p.voice = o.voice)
    {d : Diagnostic} (owner : d.owner = o.identity) : o.Tells voice (p.report d) := by
  refine ⟨same, ?_⟩
  have account : (p.report d).log = (voice d.owner).account d ++ [] := by
    rw [List.append_nil, owner, known, ← same]
    rfl
  rw [account]
  exact .reported d .nil

theorem voice_follow {α : Type} {a : Answer α} (answers : o.scripts.Answers a) :
    (o.follow a).voice = o.voice := by
  have identity := o.identity_follow answers
  simp only [voice, label, identity]
  rfl

theorem tells_finish (known : voice o.identity = o.voice) {a : Answer Unit}
    (answers : o.scripts.Answers a) (writes : o.scripts.Writes a) : o.Tells voice (o.finish a) := by
  have same := voice_follow answers
  have asides := writes.asides o.voice rfl
  unfold finish
  split
  · exact ⟨same, (Recorded.asides asides).emissions (by simp [signal, emit, Event.diagnostic?])⟩
  · rename_i d failed
    exact (tells_report known same (answers.owner d failed)).after asides

theorem tells_evaluate (known : voice o.identity = o.voice) (source : String) :
    o.Tells voice (o.evaluate source) := by
  have answers := o.scripts.answers_evaluate source
  have same := voice_follow answers
  have asides := (o.scripts.writes_evaluate source).asides o.voice rfl
  unfold evaluate
  dsimp only
  split
  · refine ⟨same, (Recorded.asides asides).emissions ?_⟩
    intro e member
    simp only [List.mem_append, List.mem_map, List.mem_singleton] at member
    obtain ⟨r, _, rfl⟩ | rfl := member <;> rfl
  · rename_i d failed
    exact (tells_report known same (answers.owner d failed)).after asides

theorem tells_executeFile (known : voice o.identity = o.voice) (s : Surroundings) (path : String) :
    o.Tells voice (o.executeFile s path) :=
  tells_finish known (o.scripts.answers_executeFile ..) (o.scripts.writes_executeFile ..)

theorem tells_importModule (known : voice o.identity = o.voice) (s : Surroundings) (name : String) :
    o.Tells voice (o.importModule s name) := by
  have tells := tells_finish known (o.scripts.answers_importModule s.modules name)
    (o.scripts.writes_importModule s.modules name)
  unfold importModule
  dsimp only
  split
  · exact ⟨tells.kept, tells.recorded.behind (note_asides rfl _)⟩
  · exact tells

theorem tells_handle (known : voice o.identity = o.voice) (s : Surroundings) (m : Message) :
    o.Tells voice (o.handle s m) := by
  have performs := o.performs s m
  unfold handle
  apply Tells.after _ (note_asides rfl m.text)
  generalize o.perform s m = outcome at performs
  cases performs with
  | defers => exact ⟨rfl, .nil⟩
  | replies output => exact ⟨rfl, .emitted _ _ _ .nil⟩
  | imports name => exact tells_importModule known s name
  | evaluates source => exact tells_evaluate known source
  | executes source =>
    exact tells_finish known (o.scripts.answers_runStatements ..) (o.scripts.writes_runStatements ..)
  | runs path => exact tells_executeFile known s path
  | refuses => exact tells_report known rfl rfl

theorem tells_saveEditor (known : voice o.identity = o.voice) (text : Text.Utf8.Bytes) :
    o.Tells voice (o.saveEditor text) := by
  have same : (o.closeEditor text).voice = o.voice := rfl
  have answers := (o.closeEditor text).scripts.answers_runStatements "edsave"
    ((o.closeEditor text).settings.file.getD "")
    (Text.Utf8.ofString (o.closeEditor text).code.toSource)
  have writes := (o.closeEditor text).scripts.writes_runStatements "edsave"
    ((o.closeEditor text).settings.file.getD "")
    (Text.Utf8.ofString (o.closeEditor text).code.toSource)
  have followed := (voice_follow answers).trans same
  have asides (name : String) := asides_noted (o.closeEditor text) same name (writes.asides o.voice rfl)
  unfold saveEditor
  dsimp only
  split
  · exact ⟨followed, .asides (asides _)⟩
  · rename_i d failed
    exact (tells_report known followed (answers.owner d failed)).after (asides _)

theorem read_voice {s : Surroundings} {name : Option String} {r : Reading}
    (ok : o.read s name = .ok r) :
    r.owner.voice = o.voice ∧ ∀ e ∈ r.log, Aside (some o.voice) e := by
  rw [read_eq] at ok
  split at ok
  · cases ok
  · split at ok
    · cases ok
    · split at ok <;> cases ok
      exact ⟨rfl, note_asides rfl _⟩

theorem tells_runTask (known : voice o.identity = o.voice) (s : Surroundings) (task : DeferredTask) :
    o.Tells voice (o.runTask s task) := by
  cases task with
  | read name =>
    unfold runTask
    dsimp only
    split
    · rename_i r ok
      obtain ⟨kept, asides⟩ := read_voice ok
      exact ⟨kept, .asides asides⟩
    · rename_i d failed
      exact tells_report known rfl (read_error failed)
  | load name =>
    unfold runTask
    dsimp only
    split
    · rename_i r ok
      obtain ⟨kept, asides⟩ := read_voice ok
      have same : r.owner.identity = o.identity := congrArg Voice.identity kept
      obtain ⟨ran, recorded⟩ := tells_executeFile (same ▸ known.trans kept.symm) s r.path
      rw [kept] at ran recorded
      exact Tells.after ⟨ran, recorded⟩ asides
    · rename_i d failed
      exact tells_report known rfl (read_error failed)

end Owner

end Patchbay
