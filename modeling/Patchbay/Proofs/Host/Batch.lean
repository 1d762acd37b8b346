import Patchbay.Proofs.Host.Shared
import Patchbay.Proofs.Host.Turn
import Mathlib.Algebra.GroupWithZero.Nat

/-!
Many requests and one turn. Requests for files that are all sent before a turn are served as they would
be if each had a turn for itself: sending puts work off and does nothing else, and a piece of work sees
what the pieces before it have left, whether they ran in the same turn or in an earlier one. Nothing else
may happen meanwhile; what a host is asked for in between could see the difference.
-/
namespace Patchbay

theorem Owner.handle_accepted (o : Owner) (s : Surroundings) {m : Message} {task : DeferredTask}
    (work : m.work? = some task) :
    o.handle s m = after (o.note m.text) { owner := o, tasks := [task] } := by
  have performs := o.performs s m
  unfold handle
  generalize o.perform s m = outcome at performs
  cases performs <;> simp_all

namespace Host

structure FileRequest where
  owner : Identity
  message : Message

def FileRequest.step (r : FileRequest) : Step := .send r.owner r.message

structure Takes (h : Host) (r : FileRequest) : Prop where
  present : h.present r.owner = true
  selector : r.message.selector = "load" ∨ r.message.selector = "read"
  silent : (h.send r.owner r.message).events = []

def together (requests : List FileRequest) : List Step := requests.map FileRequest.step ++ [.turn]

def oneByOne (requests : List FileRequest) : List Step := requests.flatMap fun r => [r.step, .turn]

def Told.ran? : Told → Option Nat
  | .ran number => some number
  | _ => none

def workDone (h : Host) (steps : List Step) : Nat := ((h.trace steps).filterMap fun m => m.told.ran?).sum

/-- A request puts off this work, of an owner that is there. -/
structure Defers (h : Host) (r : FileRequest) (w : Identity × DeferredTask) : Prop where
  present : h.present r.owner = true
  owner : w.1 = r.owner
  work : r.message.work? = some w.2

theorem Takes.defers {h : Host} {r : FileRequest} (takes : h.Takes r) : ∃ w, h.Defers r w := by
  obtain ⟨o, found⟩ := Option.isSome_iff_exists.mp takes.present
  obtain ⟨task, work, _⟩ | ⟨_, text, reported⟩ := o.handle_defers h.surroundings takes.selector
  · exact ⟨(r.owner, task), takes.present, rfl, work⟩
  · have silent := takes.silent
    simp only [send, found, absorb, reported] at silent
    cases silent

theorem exists_work {h : Host} {requests : List FileRequest} (takes : ∀ r ∈ requests, h.Takes r) :
    ∃ work, List.Forall₂ h.Defers requests work := by
  induction requests with
  | nil => exact ⟨[], .nil⟩
  | cons r rest ih =>
    obtain ⟨w, first⟩ := (takes r List.mem_cons_self).defers
    obtain ⟨work, others⟩ := ih fun r member => takes r (List.mem_cons_of_mem _ member)
    exact ⟨w :: work, .cons first others⟩

theorem after_deferring {h : Host} (regular : h.Regular) {r : FileRequest}
    {w : Identity × DeferredTask} (defers : h.Defers r w) :
    h.after r.step = ({ h with deferred := ⟨h.deferred.pending ++ [w]⟩ }, []) := by
  obtain ⟨i, message⟩ := r
  obtain ⟨j, task⟩ := w
  obtain ⟨present, owner, work⟩ := defers
  cases owner
  obtain ⟨o, found⟩ := Option.isSome_iff_exists.mp present
  have named : o.identity = i := regular.named found
  change (h.send i message).outcome = _
  rw [after_send, deliver_found found]
  simp only [o.handle_accepted h.surroundings work, Owner.after, absorb, update, named,
    Roster.replace_self found, DeferralQueue.schedule, List.foldl_cons, List.foldl_nil]

theorem Defers.later {h : Host} {r : FileRequest} {w : Identity × DeferredTask} (defers : h.Defers r w)
    (i : Identity) (task : DeferredTask) : (h.runDeferred i task).host.Defers r w := by
  refine ⟨?_, defers.owner, defers.work⟩
  rw [runDeferred_host, present_deliver]
  exact defers.present

theorem pending_runDeferred (h : Host) (i : Identity) (task : DeferredTask) :
    (h.runDeferred i task).host.deferred.pending = h.deferred.pending := by
  rw [runDeferred_host]
  apply deliver_keeps (P := fun k => k.deferred.pending = h.deferred.pending) rfl
  rintro o r _ ⟨⟩
  exact h.pending_runTask i o task

theorem workDone_cons (h : Host) (s : Step) (rest : List Step) :
    h.workDone (s :: rest) = (h.told s).ran?.getD 0 + (h.after s).1.workDone rest := by
  simp only [workDone, trace, List.filterMap_cons, moment]
  cases (h.told s).ran? <;> simp

theorem run_turn {h : Host} (idle : h.deferred.pending = []) (work : List (Identity × DeferredTask))
    (rest : List Step) :
    let waiting : Host := { h with deferred := ⟨work⟩ }
    let served := h.runAll work
    waiting.run (.turn :: rest) = ((served.host.run rest).1, served.events ++ (served.host.run rest).2) ∧
      waiting.workDone (.turn :: rest) = served.result + served.host.workDone rest := by
  intro waiting served
  have emptied : { h with deferred := {} } = h := by
    obtain ⟨_, _, _, ⟨pending⟩, _, _⟩ := h
    cases idle
    rfl
  have turned : waiting.turn = served := by
    change runAll { h with deferred := {} } work = _
    rw [emptied]
  have after : waiting.after .turn = (served.host, served.events) := by
    rw [Host.after, turned]
    rfl
  have told : waiting.told .turn = .ran served.result := by rw [Host.told, turned]
  rw [run, workDone_cons, after, told]
  exact ⟨rfl, rfl⟩

theorem run_sent {h : Host} (regular : h.Regular) {requests : List FileRequest}
    {work : List (Identity × DeferredTask)} (defers : List.Forall₂ h.Defers requests work)
    (rest : List Step) :
    let waiting : Host := { h with deferred := ⟨h.deferred.pending ++ work⟩ }
    h.run (requests.map FileRequest.step ++ rest) = waiting.run rest ∧
      h.workDone (requests.map FileRequest.step ++ rest) = waiting.workDone rest := by
  induction requests generalizing h work with
  | nil =>
    cases defers
    simp
  | cons r requests ih =>
    obtain _ | @⟨_, w, _, others, first, later⟩ := defers
    let next : Host := { h with deferred := ⟨h.deferred.pending ++ [w]⟩ }
    have after : h.after r.step = (next, []) := after_deferring regular first
    have still : next.Regular := ⟨regular.coherent, regular.named⟩
    have same : List.Forall₂ next.Defers requests others :=
      later.imp fun _ _ defers => ⟨defers.present, defers.owner, defers.work⟩
    obtain ⟨ran, done⟩ := ih still same
    have silent : (h.told r.step).ran? = none := rfl
    simp only [next, List.append_assoc, List.singleton_append] at ran done
    rw [List.map_cons, List.cons_append, run, workDone_cons, after, silent, ran, done]
    simp

/-- Requests that are sent before one turn are served in it. -/
theorem run_together {h : Host} (regular : h.Regular) (idle : h.deferred.pending = [])
    {requests : List FileRequest} {work : List (Identity × DeferredTask)}
    (defers : List.Forall₂ h.Defers requests work) :
    h.run (together requests) = ((h.runAll work).host, (h.runAll work).events) ∧
      h.workDone (together requests) = (h.runAll work).result := by
  obtain ⟨ran, done⟩ := run_sent regular defers [.turn]
  obtain ⟨turned, number⟩ := run_turn idle work []
  simp only [idle, List.nil_append] at ran done
  rw [together, ran, done, turned, number, run, List.append_nil]
  exact ⟨rfl, rfl⟩

theorem run_oneByOne {h : Host} (regular : h.Regular) (idle : h.deferred.pending = [])
    {requests : List FileRequest} {work : List (Identity × DeferredTask)}
    (defers : List.Forall₂ h.Defers requests work) :
    h.run (oneByOne requests) = ((h.runAll work).host, (h.runAll work).events) ∧
      h.workDone (oneByOne requests) = (h.runAll work).result := by
  induction requests generalizing h work with
  | nil =>
    cases defers
    exact ⟨rfl, rfl⟩
  | cons r requests ih =>
    obtain _ | @⟨_, w, _, others, first, later⟩ := defers
    let next := (h.runAll [w]).host
    have idle' : next.deferred.pending = [] := (h.pending_runDeferred w.1 w.2).trans idle
    have same : List.Forall₂ next.Defers requests others :=
      later.imp fun _ _ defers => defers.later w.1 w.2
    obtain ⟨ran, done⟩ := ih (regular.runAll [w]) idle' same
    obtain ⟨sent, waits⟩ := run_sent regular (.cons first .nil) (.turn :: oneByOne requests)
    obtain ⟨turned, number⟩ := run_turn idle [w] (oneByOne requests)
    simp only [idle, List.nil_append] at sent waits
    change h.run ([r].map FileRequest.step ++ .turn :: oneByOne requests) = _ ∧
      h.workDone ([r].map FileRequest.step ++ .turn :: oneByOne requests) = _
    rw [sent, waits, turned, number, ran, done]
    simp [runAll]

theorem runAll_deferred {h : Host} {requests : List FileRequest} {work : List (Identity × DeferredTask)}
    (defers : List.Forall₂ h.Defers requests work) :
    (h.runAll work).result = requests.length ∧
      (h.runAll work).host.deferred.pending = h.deferred.pending := by
  induction requests generalizing h work with
  | nil =>
    cases defers
    exact ⟨rfl, rfl⟩
  | cons r requests ih =>
    obtain _ | @⟨_, w, _, others, first, later⟩ := defers
    obtain ⟨o, found⟩ := Option.isSome_iff_exists.mp first.present
    rw [← first.owner] at found
    obtain ⟨number, waits⟩ := ih (later.imp fun _ _ defers => defers.later w.1 w.2)
    constructor
    · rw [runAll, number, runDeferred_result, found, List.length_cons, Nat.add_comm]
      rfl
    · exact waits.trans (h.pending_runDeferred w.1 w.2)

/-- It does not show how requests for files are spread over turns. On an idle host, requests that are
taken on leave the same host, with the texts, the remembered files and the namespaces of all owners, and
make owners send back the same in the same order, whether one turn comes after all of them or one after
each; either way the turns count as many pieces of work, one for each request, and none is left. -/
theorem batching_never_shows {h : Host} (reachable : h.Reachable) (idle : h.deferred.pending = [])
    {requests : List FileRequest} (takes : ∀ r ∈ requests, h.Takes r) :
    h.run (oneByOne requests) = h.run (together requests) ∧
      h.workDone (oneByOne requests) = h.workDone (together requests) ∧
      h.workDone (together requests) = requests.length ∧
      (h.run (together requests)).1.deferred.pending = [] := by
  obtain ⟨work, defers⟩ := exists_work takes
  obtain ⟨ran, done⟩ := run_together reachable.regular idle defers
  obtain ⟨ran', done'⟩ := run_oneByOne reachable.regular idle defers
  obtain ⟨number, waits⟩ := runAll_deferred defers
  refine ⟨ran'.trans ran.symm, done'.trans done.symm, done.trans number, ?_⟩
  rw [ran]
  exact waits.trans idle

/-- A read that finds nothing stands between a load and a read of the file that the load remembers. -/
theorem failed_read_batched :
    let i := Identity.ofNat 1
    let h := ((opening {} {} { entries := [(["a.js"], .file (Text.Utf8.ofString "x = 1"))] } []).after
      (.spawn {} {})).1
    let requests : List FileRequest := [⟨i, .ofAtoms "load" [.symbol "a.js"]⟩,
      ⟨i, .ofAtoms "read" [.symbol "lost.js"]⟩, ⟨i, .ofAtoms "read" []⟩]
    (∀ r ∈ requests, h.Takes r) ∧ h.deferred.pending = [] ∧
      h.run (oneByOne requests) = h.run (together requests) ∧
      h.workDone (together requests) = 3 := by
  intro i h requests
  have reachable : h.Reachable := .after _ (.opening ..)
  have takes : ∀ r ∈ requests, h.Takes r := by
    intro r member
    simp only [requests, List.mem_cons, List.not_mem_nil, or_false] at member
    obtain rfl | rfl | rfl := member
    · exact ⟨rfl, .inl rfl, rfl⟩
    · exact ⟨rfl, .inr rfl, rfl⟩
    · exact ⟨rfl, .inr rfl, rfl⟩
  obtain ⟨same, _, number, _⟩ := batching_never_shows reachable rfl takes
  exact ⟨takes, rfl, same, number⟩

end Host

end Patchbay
