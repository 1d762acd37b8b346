import Patchbay.Proofs.Host.Succession
import Patchbay.Proofs.Owner.Logged

/-!
The log of whole runs, by the steps of a host and by those of others on its lifecycle. A run is taken
apart into the doings of one owner, or of nobody, so that what is written can be laid to the one who
caused it. What others log is not spoken of, nor what a process logs when it ends.
-/
namespace Patchbay

open Log (Aside)

namespace Lifecycle

variable (l : Lifecycle) (doer : Option Voice)

theorem release_asides : ∀ e ∈ l.release.2, Aside doer e := by
  intro e member
  unfold release at member
  split at member <;> rw [List.mem_singleton.mp member]
  · exact .unmatchedRelease
  · exact .finalized
  · exact .released _

theorem retain_asides : ∀ e ∈ l.retain.2, Aside doer e := by
  intro e member
  rw [List.mem_singleton.mp member]
  exact .acquired _

variable {l}

theorem acquire_asides {k : Lifecycle} {granted : Bool} {log : List Log.Entry}
    (ok : l.acquire granted = (.ok log, k)) : ∀ e ∈ log, Aside doer e := by
  unfold acquire at ok
  split at ok
  · cases ok
  · cases ok
    exact l.retain_asides doer
  · split at ok
    · cases ok
    · rename_i begun j started
      cases ok
      unfold start at started
      split at started
      · cases started
      · split at started <;> cases started
        intro e member
        rcases List.mem_cons.mp member with rfl | taken
        · exact .initialized _
        · exact retain_asides _ doer e taken

theorem createNamespace_asides {k : Lifecycle} {s t : Supply} {granted : Bool} {n : Namespace}
    {log : List Log.Entry} (ok : l.createNamespace s granted = (.ok (n, k, log), t)) :
    ∀ e ∈ log, Aside doer e := by
  unfold createNamespace at ok
  split at ok
  · cases ok
  · cases granted with
    | false => cases ok
    | true =>
      cases ok
      intro e member
      rw [List.mem_singleton.mp member]
      exact .namespaceCreated _

end Lifecycle

namespace Owner

theorem make_asides_ok {l : Lifecycle} {s : Supply} {settings : OwnerSettings} {room : Room} {o : Owner}
    (made : (make l s settings room).result = .ok o) :
    ∀ e ∈ (make l s settings room).log, Aside (some o.voice) e := by
  unfold make at made ⊢
  split at made
  · cases made
  · rename_i taken
    split at made
    · rename_i created
      cases made
      intro e member
      rcases List.mem_append.mp member with begun | noted
      · rcases List.mem_append.mp begun with acquired | more
        · exact Lifecycle.acquire_asides _ taken e acquired
        · exact Lifecycle.createNamespace_asides _ created e more
      · exact note_asides rfl _ e noted
    · cases made

theorem make_asides_error {l : Lifecycle} {s : Supply} {settings : OwnerSettings} {room : Room}
    {e : LifecycleError} (failed : (make l s settings room).result = .error e) (doer : Option Voice) :
    ∀ e ∈ (make l s settings room).log, Aside doer e := by
  unfold make at failed ⊢
  split at failed
  · exact nofun
  · rename_i taken
    split at failed
    · cases failed
    · intro e member
      rcases List.mem_append.mp member with acquired | released
      · exact Lifecycle.acquire_asides doer taken e acquired
      · exact Lifecycle.release_asides _ doer e released

end Owner

namespace Host

/-- What was sent back and written down while one owner, or nobody, was at work. -/
structure Doing where
  doer : Option Voice
  events : List Event
  log : List Log.Entry

def voice? (h : Host) (i : Identity) : Option Voice := (h.owner? i).map Owner.voice

def Report.doing {α : Type} (r : Report α) (doer : Option Voice) : Doing := ⟨doer, r.events, r.log⟩

def workDoings (h : Host) : List (Identity × DeferredTask) → List Doing
  | [] => []
  | (i, task) :: rest =>
    (h.runDeferred i task).doing (h.voice? i) :: (h.runDeferred i task).host.workDoings rest

/-- The doings of a step. Whoever is spawned is at work in its own making. -/
def doings (h : Host) : Step → List Doing
  | .spawn settings room =>
    let r := h.spawn settings room
    [r.doing (r.result.toOption.bind r.host.voice?)]
  | .free i => [(h.free i).doing (h.voice? i)]
  | .send i m => [(h.send i m).doing (h.voice? i)]
  | .sendLine i line => [(h.sendLine i line).doing (h.voice? i)]
  | .editorClosed i text => [(h.editorClosed i text).doing (h.voice? i)]
  | .editorSaved i text => [(h.editorSaved i text).doing (h.voice? i)]
  | .turn => workDoings { h with deferred := {} } h.deferred.pending
  | .register m => [(h.register m).doing none]
  | .changeFiles _ | .skipIdentities _ => []

def logged (h : Host) : Step → List Log.Entry
  | .spawn settings room => (h.spawn settings room).log
  | .free i => (h.free i).log
  | .send i m => (h.send i m).log
  | .sendLine i line => (h.sendLine i line).log
  | .editorClosed i text => (h.editorClosed i text).log
  | .editorSaved i text => (h.editorSaved i text).log
  | .turn => h.turn.log
  | .register m => (h.register m).log
  | .changeFiles _ | .skipIdentities _ => []

theorem workDoings_report (h : Host) (work : List (Identity × DeferredTask)) :
    (h.workDoings work).flatMap Doing.events = (h.runAll work).events ∧
      (h.workDoings work).flatMap Doing.log = (h.runAll work).log := by
  induction work generalizing h with
  | nil => exact ⟨rfl, rfl⟩
  | cons w rest ih =>
    obtain ⟨events, log⟩ := ih (h.runDeferred w.1 w.2).host
    simp only [workDoings, runAll, List.flatMap_cons, events, log, Report.doing, and_self]

theorem doings_report (h : Host) (s : Step) :
    (h.doings s).flatMap Doing.events = (h.after s).2 ∧ (h.doings s).flatMap Doing.log = h.logged s := by
  cases s
  case turn => exact workDoings_report _ _
  case changeFiles | skipIdentities => exact ⟨rfl, rfl⟩
  all_goals exact ⟨List.flatMap_singleton .., List.flatMap_singleton ..⟩

def Known (voice : Identity → Voice) (h : Host) : Prop :=
  ∀ {i o}, h.owner? i = some o → voice i = o.voice

/-- A doing that is recorded under the voice of its doer, who alone sends anything back, with nothing else
written than it may. -/
structure Doing.Sound (voice : Identity → Voice) (d : Doing) : Prop where
  doer : ∀ v, d.doer = some v → voice v.identity = v
  named : ∀ e ∈ d.events, ∃ v, d.doer = some v ∧ e.owner = v.identity
  recorded : Recorded voice (Aside d.doer) d.events d.log

theorem Known.doer {voice : Identity → Voice} {h : Host} (known : Known voice h) (regular : h.Regular)
    {i : Identity} {v : Voice} (there : h.voice? i = some v) : voice v.identity = v := by
  obtain ⟨o, found, rfl⟩ := Option.map_eq_some_iff.mp there
  exact (congrArg voice (regular.named found)).trans (known found)

theorem voice?_found {h : Host} {i : Identity} {o : Owner} (found : h.owner? i = some o) :
    h.voice? i = some o.voice := by
  rw [voice?, found, Option.map_some]

theorem voice?_absorb {h : Host} {i : Identity} {o : Owner} {r : Response} (found : h.owner? i = some o)
    (kept : r.owner.voice = o.voice) (j : Identity) : (h.absorb i r).host.voice? j = h.voice? j := by
  simp only [voice?, owner?_absorb]
  split
  · rename_i same
    rw [same, found, Option.map_some, Option.map_some, Option.map_some, kept]
  · rfl

theorem Known.of_voice? {voice : Identity → Voice} {h k : Host} (known : Known voice h)
    (same : ∀ i, k.voice? i = h.voice? i) : Known voice k := by
  intro i o found
  have there := (same i).symm.trans (voice?_found found)
  obtain ⟨p, before, voices⟩ := Option.map_eq_some_iff.mp there
  exact (known before).trans voices

theorem voice?_deliver {h : Host} {i : Identity} {f : Owner → Option Response}
    (kept : ∀ o r, h.owner? i = some o → f o = some r → r.owner.voice = o.voice) (j : Identity) :
    (h.deliver i f).1.voice? j = h.voice? j :=
  deliver_keeps (P := fun k => k.voice? j = h.voice? j) rfl fun o r found done =>
    voice?_absorb found (kept o r found done) j

theorem voice?_runDeferred (h : Host) (i : Identity) (task : DeferredTask) (j : Identity) :
    (h.runDeferred i task).host.voice? j = h.voice? j := by
  rw [runDeferred_host]
  refine voice?_deliver (fun o r _ done => ?_) j
  cases done
  exact (@Owner.tells_runTask (fun _ => o.voice) o rfl _ task).kept

theorem voice?_runAll (h : Host) (work : List (Identity × DeferredTask)) (j : Identity) :
    (h.runAll work).host.voice? j = h.voice? j := by
  induction work generalizing h with
  | nil => rfl
  | cons w rest ih => exact (ih (h.runDeferred w.1 w.2).host).trans (h.voice?_runDeferred w.1 w.2 j)

theorem tells_response {voice : Identity → Voice} {s : Surroundings} {o : Owner} {step : Step}
    {r : Response} (known : voice o.identity = o.voice) (does : step.response? s o = some r) :
    o.Tells voice r := by
  cases step <;> simp only [Step.response?, Option.some.injEq, reduceCtorEq] at does
  case send m =>
    subst does
    exact Owner.tells_handle known s m
  case sendLine line =>
    obtain ⟨m, _, rfl⟩ := Option.map_eq_some_iff.mp does
    exact Owner.tells_handle known s m
  case editorClosed text =>
    subst does
    exact ⟨rfl, .nil⟩
  case editorSaved text =>
    subst does
    exact Owner.tells_saveEditor known text

theorem sound_nobody {voice : Identity → Voice} {log : List Log.Entry}
    (asides : ∀ e ∈ log, Aside none e) : Doing.Sound voice ⟨none, [], log⟩ :=
  ⟨nofun, nofun, .asides asides⟩

theorem sound_absent {voice : Identity → Voice} {h : Host} {i : Identity} {e : Log.Entry}
    (absent : h.owner? i = none) (aside : Aside none e) : Doing.Sound voice ⟨h.voice? i, [], [e]⟩ := by
  have nobody : h.voice? i = none := by rw [voice?, absent, Option.map_none]
  rw [nobody]
  refine sound_nobody fun e member => ?_
  rw [List.mem_singleton.mp member]
  exact aside

section Doings

variable {voice : Identity → Voice} {h : Host} (known : Known voice h) (regular : h.Regular)
include known regular

theorem sound_idle (i : Identity) : Doing.Sound voice ⟨h.voice? i, [], []⟩ :=
  ⟨fun _ there => known.doer regular there, nofun, .nil⟩

theorem sound_absorb {i : Identity} {o : Owner} {r : Response} (found : h.owner? i = some o)
    (responds : o.Responds r) (tells : o.Tells voice r) :
    ((h.absorb i r).doing (h.voice? i)).Sound voice := by
  refine ⟨fun _ there => known.doer regular there,
    fun e member => ⟨o.voice, voice?_found found, responds.named e member⟩, ?_⟩
  have deferred : ∀ e ∈ r.tasks.map fun t => Log.Entry.deferred r.owner.identity t.shown,
      Aside (some o.voice) e := by
    intro e member
    obtain ⟨task, _, rfl⟩ := List.mem_map.mp member
    exact .deferred _ _
  have recorded := tells.recorded.behind deferred
  rw [← voice?_found found] at recorded
  exact recorded

theorem known_owner {i : Identity} {o : Owner} (found : h.owner? i = some o) :
    voice o.identity = o.voice := known.doer regular (voice?_found found)

theorem sound_send (i : Identity) (m : Message) : ((h.send i m).doing (h.voice? i)).Sound voice := by
  unfold send
  split
  · rename_i absent
    exact sound_absent absent (.unknownOwner i)
  · rename_i o found
    exact sound_absorb known regular found (o.responds_handle _ m)
      (Owner.tells_handle (known_owner known regular found) _ m)

theorem sound_sendLine (i : Identity) (line : String) :
    ((h.sendLine i line).doing (h.voice? i)).Sound voice := by
  unfold sendLine
  split
  · exact sound_idle known regular i
  · exact sound_send known regular i _

theorem sound_editorClosed (i : Identity) (text : Text.Utf8.Bytes) :
    ((h.editorClosed i text).doing (h.voice? i)).Sound voice := by
  unfold editorClosed
  split <;> exact sound_idle known regular i

theorem sound_editorSaved (i : Identity) (text : Text.Utf8.Bytes) :
    ((h.editorSaved i text).doing (h.voice? i)).Sound voice := by
  unfold editorSaved
  split
  · exact sound_idle known regular i
  · rename_i o found
    exact sound_absorb known regular found (o.responds_saveEditor text)
      (Owner.tells_saveEditor (known_owner known regular found) text)

theorem sound_runDeferred (i : Identity) (task : DeferredTask) :
    ((h.runDeferred i task).doing (h.voice? i)).Sound voice := by
  unfold runDeferred
  split
  · rename_i absent
    exact sound_absent absent (.taskDropped i _)
  · rename_i o found
    exact sound_absorb known regular found (o.responds_runTask _ task)
      (Owner.tells_runTask (known_owner known regular found) _ task)

theorem sound_free (i : Identity) : ((h.free i).doing (h.voice? i)).Sound voice := by
  unfold free
  split
  · exact sound_idle known regular i
  · rename_i o found
    refine ⟨fun _ there => known.doer regular there, nofun, ?_⟩
    have dismissed : ∀ e ∈ (dismiss h.lifecycle o).2, Aside (some o.voice) e := by
      intro e member
      rcases List.mem_append.mp member with left | released
      · rcases List.mem_append.mp left with noted | dropped
        · exact Owner.note_asides rfl _ e noted
        · rw [List.mem_singleton.mp dropped]
          exact .namespaceReleased _
      · exact Lifecycle.release_asides _ _ e released
    rw [← voice?_found found] at dismissed
    exact .asides dismissed

theorem sound_workDoings (work : List (Identity × DeferredTask)) :
    ∀ d ∈ h.workDoings work, d.Sound voice := by
  induction work generalizing h with
  | nil => exact nofun
  | cons w rest ih =>
    obtain ⟨i, task⟩ := w
    intro d member
    rcases List.mem_cons.mp member with rfl | later
    · exact sound_runDeferred known regular i task
    · have left : (h.runDeferred i task).host.Regular := by
        rw [runDeferred_host]
        exact regular.deliver fun o r does => task_responds does
      exact ih (known.of_voice? (voice?_runDeferred h i task)) left d later

end Doings

theorem recorded_spawn {h : Host} (reachable : h.Reachable) (voice : Identity → Voice)
    (settings : OwnerSettings) (room : Room) :
    let r := h.spawn settings room
    Recorded voice (Aside (r.result.toOption.bind r.host.voice?)) r.events r.log := by
  unfold spawn
  dsimp only
  split
  · rename_i failed
    exact .asides (Owner.make_asides_error failed _)
  · rename_i o made
    have identity := (Owner.make_ok reachable.regular.coherent made).2.2.2.2
    have absent : h.roster.get? o.identity = none := by
      cases found : h.roster.get? o.identity with
      | none => rfl
      | some p =>
        have issued : h.supply.Issued o.identity :=
          reachable.issued (by simp [present, owner?, found])
        exact absurd (identity ▸ issued) h.supply.not_issued_take
    have doer : (Except.ok o.identity : Except LifecycleError Identity).toOption.bind
        (voice? { h with
          lifecycle := (Owner.make h.lifecycle h.supply settings room).lifecycle
          supply := (Owner.make h.lifecycle h.supply settings room).supply
          roster := h.roster.insert o.identity o }) = some o.voice := by
      simp only [Except.toOption, Option.bind_some, voice?, owner?, Roster.get?_insert, if_true,
        Option.map_some]
    simp only [enroll, owner?, absent, List.append_nil, doer]
    exact .asides (Owner.make_asides_ok made)

theorem sound_spawn {voice : Identity → Voice} {h : Host} (reachable : h.Reachable)
    {settings : OwnerSettings} {room : Room} (later : Known voice (h.spawn settings room).host) :
    ∀ d ∈ h.doings (.spawn settings room), d.Sound voice := by
  intro d member
  rw [List.mem_singleton.mp member]
  refine ⟨?_, ?_, recorded_spawn reachable voice settings room⟩
  · intro v there
    obtain ⟨i, _, there⟩ := Option.bind_eq_some_iff.mp there
    exact later.doer (reachable.regular.spawn settings room) there
  · intro e sent
    change e ∈ (h.spawn settings room).events at sent
    rw [(h.spawn_rest settings room).1] at sent
    cases sent

theorem sound_doings {voice : Identity → Voice} {h : Host} (reachable : h.Reachable)
    (known : Known voice h) {s : Step} (later : Known voice (h.after s).1) :
    ∀ d ∈ h.doings s, d.Sound voice := by
  have regular := reachable.regular
  cases s
  case spawn settings room => exact sound_spawn reachable later
  case turn =>
    have emptied : Regular { h with deferred := {} } := ⟨regular.coherent, regular.named⟩
    exact sound_workDoings (h := { h with deferred := {} }) known emptied _
  case changeFiles | skipIdentities => exact nofun
  all_goals
    intro d member
    rw [List.mem_singleton.mp member]
  case free i => exact sound_free known regular i
  case send i m => exact sound_send known regular i m
  case sendLine i line => exact sound_sendLine known regular i line
  case editorClosed i text => exact sound_editorClosed known regular i text
  case editorSaved i text => exact sound_editorSaved known regular i text
  case register m =>
    unfold register
    split <;> exact sound_nobody nofun

/-- An owner goes by the voice that it had before, or it is new. -/
def Inherits (h k : Host) : Prop :=
  ∀ i v, k.voice? i = some v → h.voice? i = some v ∨ ¬ h.supply.Issued i

theorem Inherits.of_same {h k : Host} (same : ∀ i, k.voice? i = h.voice? i) : h.Inherits k := by
  intro i v there
  exact .inl ((same i).symm.trans there)

theorem inherits_spawn {h : Host} (regular : h.Regular) (settings : OwnerSettings) (room : Room) :
    h.Inherits (h.spawn settings room).host := by
  cases result : (h.spawn settings room).result with
  | error e =>
    rw [(spawn_refused result).2]
    exact .of_same fun _ => rfl
  | ok i =>
    obtain ⟨o, _, next, _, roster⟩ := regular.spawn_ok result
    intro j v there
    rw [voice?, owner?, roster, Roster.get?_insert] at there
    split at there
    · rename_i same
      rw [same, next]
      exact .inr h.supply.not_issued_take
    · exact .inl there

theorem inherits_free (h : Host) (i : Identity) : h.Inherits (h.free i).host := by
  unfold free
  split
  · exact .of_same fun _ => rfl
  · intro j v there
    rw [voice?, owner?, Roster.get?_erase] at there
    split at there
    · cases there
    · exact .inl there

theorem inherits_after {h : Host} (regular : h.Regular) (s : Step) : h.Inherits (h.after s).1 := by
  have moved := h.moves s
  generalize (h.after s).1 = k at moved ⊢
  cases moved with
  | spawns settings room => exact inherits_spawn regular settings room
  | frees i => exact h.inherits_free i
  | delivers =>
    refine .of_same (voice?_deliver fun o r _ done => ?_)
    exact (@tells_response (fun _ => o.voice) _ o _ r rfl done).kept
  | serves work => exact .of_same (voice?_runAll { h with deferred := {} } work)
  | registers | files | skips => exact .of_same fun _ => rfl

inductive Happening
  | own (s : Step)
  | elsewhere (s : Bench.Step) (leases : List Bool) (namespaces : List (Option Namespace))

def pass (h : Host) : Happening → Host
  | .own s => (h.after s).1
  | .elsewhere s leases namespaces => h.beside ((h.outside leases namespaces).after s)

def visited (h : Host) : List Happening → List Host
  | [] => [h]
  | x :: rest => h :: (h.pass x).visited rest

def gather {α : Type} (leaves : Host → Step → List α) (h : Host) : List Happening → List α
  | [] => []
  | .own s :: rest => leaves h s ++ gather leaves (h.pass (.own s)) rest
  | x :: rest => gather leaves (h.pass x) rest

theorem gather_flatMap {α β : Type} {leaves : Host → Step → List α} {parts : Host → Step → List β}
    (f : β → List α) (split : ∀ h s, (parts h s).flatMap f = leaves h s) (h : Host)
    (course : List Happening) : (gather parts h course).flatMap f = gather leaves h course := by
  induction course generalizing h with
  | nil => rfl
  | cons x rest ih =>
    cases x with
    | own s => rw [gather, gather, List.flatMap_append, split, ih]
    | elsewhere => exact ih _

theorem mem_visited (h : Host) (course : List Happening) : h ∈ h.visited course := by
  cases course <;> exact .head _

theorem Reachable.pass {h : Host} (reachable : h.Reachable) (x : Happening) : (h.pass x).Reachable := by
  cases x with
  | own s => exact .after s reachable
  | elsewhere s leases namespaces => exact .elsewhere s leases namespaces reachable

theorem inherits_pass {h : Host} (regular : h.Regular) (x : Happening) : h.Inherits (h.pass x) := by
  cases x with
  | own s => exact inherits_after regular s
  | elsewhere => exact .of_same fun _ => rfl

theorem supply_pass {h : Host} (regular : h.Regular) (x : Happening) :
    h.supply.next ≤ (h.pass x).supply.next := by
  cases x with
  | own s => exact (regular.follows_after s).later
  | elsewhere s leases namespaces => exact (Follows.of_elsewhere h s leases namespaces).later

theorem exists_known {h : Host} (reachable : h.Reachable) {voice : Identity → Voice}
    (known : Known voice h) (course : List Happening) :
    ∃ wider : Identity → Voice, (∀ i, h.supply.Issued i → wider i = voice i) ∧
      ∀ k ∈ h.visited course, Known wider k := by
  induction course generalizing h voice with
  | nil =>
    refine ⟨voice, fun _ _ => rfl, ?_⟩
    intro k member
    rw [List.mem_singleton.mp member]
    exact known
  | cons x rest ih =>
    have inherits := inherits_pass reachable.regular x
    have next : Known (fun i => ((h.pass x).voice? i).getD (voice i)) (h.pass x) := by
      intro i o found
      simp only [voice?_found found, Option.getD_some]
    obtain ⟨wider, agrees, all⟩ := ih (reachable.pass x) next
    -- A voice that is taken over from the next host is the one that was there, or is new.
    have same : ∀ i, h.supply.Issued i → wider i = voice i := by
      intro i issued
      rw [agrees i (issued.mono (supply_pass reachable.regular x))]
      cases there : (h.pass x).voice? i with
      | none => rfl
      | some v =>
        obtain ⟨o, found, voiced⟩ := Option.map_eq_some_iff.mp
          ((inherits i v there).resolve_right (not_not_intro issued))
        exact (known found |>.trans voiced).symm
    refine ⟨wider, same, ?_⟩
    intro k member
    rcases List.mem_cons.mp member with rfl | later
    · intro i o found
      rw [same i (reachable.issued (by simp [present, found]))]
      exact known found
    · exact all k later

theorem sound_course {h : Host} (reachable : h.Reachable) {voice : Identity → Voice}
    {course : List Happening} (known : ∀ k ∈ h.visited course, Known voice k) :
    ∀ d ∈ gather doings h course, d.Sound voice := by
  induction course generalizing h with
  | nil => exact nofun
  | cons x rest ih =>
    have later := ih (reachable.pass x) fun k member => known k (.tail _ member)
    cases x with
    | own s =>
      intro d member
      rcases List.mem_append.mp member with now | after
      · exact sound_doings reachable (known h (.head _)) (known _ (.tail _ (mem_visited _ rest))) d now
      · exact later d after
    | elsewhere => exact later

theorem recorded_doings {voice : Identity → Voice} {all : List Doing} (sound : ∀ d ∈ all, d.Sound voice) :
    Recorded voice (fun e => ∃ doer, Aside doer e) (all.flatMap Doing.events) (all.flatMap Doing.log) := by
  induction all with
  | nil => exact .nil
  | cons d rest ih =>
    have first := (sound d (.head _)).recorded.mono fun e aside =>
      show ∃ doer, Aside doer e from ⟨d.doer, aside⟩
    exact first.append (ih fun x member => sound x (.tail _ member))

/-- In every run of a host, on a lifecycle that it may share, the errors in the log that no script posted
are the reports, one for each and in their order, with their texts and under the labels of their owners;
a traceback stands right behind its error, just for an owner that is debugged. The log is that of the
doings one after the other. One whose doer is not debugged, or is nobody, notes only what scripts of the
doer post, and that the interpreter starts or ends. -/
theorem log_tells_reports (settings : InterpreterSettings) (supply : Supply) (files : Files.Tree)
    (roots : List String) (course : List Happening) :
    let start := opening settings supply files roots
    let events := gather (fun h s => (h.after s).2) start course
    let log := gather logged start course
    let done := gather doings start course
    ∃ voice : Identity → Voice,
      (∀ h ∈ start.visited course, ∀ i o, h.owner? i = some o → o.voice = voice i) ∧
      log.filter Log.Entry.isOwnError =
        (events.filterMap Event.diagnostic?).map (fun d => .failure (voice d.owner).label d.text) ∧
      Recorded voice (fun e => ∃ doer, Aside doer e) events log ∧
      events = done.flatMap Doing.events ∧
      log = done.flatMap Doing.log ∧
      ∀ d ∈ done, (∀ v, d.doer = some v → v = voice v.identity) ∧
        (∀ e ∈ d.events, ∃ v, d.doer = some v ∧ e.owner = v.identity) ∧
        ((∀ v, d.doer = some v → v.debug = false) → ∀ e ∈ d.log, e.level = .info →
          (∃ modules, e = .initialized modules) ∨ e = .finalized ∨
            ∃ v text, d.doer = some v ∧ e = .posted v.identity false text) := by
  intro start events log done
  have reachable : start.Reachable := .opening ..
  have nobody : Known (fun _ => default) start := nofun
  obtain ⟨voice, _, known⟩ := exists_known reachable nobody course
  have sound := sound_course reachable known
  have parts : done.flatMap Doing.events = events :=
    gather_flatMap _ (fun h s => (h.doings_report s).1) ..
  have pieces : done.flatMap Doing.log = log :=
    gather_flatMap _ (fun h s => (h.doings_report s).2) ..
  have recorded := recorded_doings sound
  rw [parts, pieces] at recorded
  refine ⟨voice, fun h member i o found => (known h member found).symm, ?_, recorded, parts.symm,
    pieces.symm, ?_⟩
  · exact recorded.errors fun _ allowed => allowed.elim fun _ aside => aside.not_isOwnError
  · intro d member
    obtain ⟨doer, named, recorded⟩ := sound d member
    refine ⟨fun v does => (doer v does).symm, named, ?_⟩
    intro quiet e written info
    exact (recorded.allowed_of_info written info).info quiet info

/-- An owner that is not debugged is still heard when it fails, under its name. -/
example :
    let h := ((opening {} {} {} []).after (.spawn { name := some "synth", debug := false } {})).1
    (h.send (.ofNat 1) (.ofAtoms "frobnicate" [])).log =
      [.failure "synth" "[u000001] <- (frobnicate): no method for message"] := by
  decide +kernel

end Host

end Patchbay
