import Patchbay.Proofs.Host.Census
import Mathlib.Data.List.Basic

/-!
Turns within whole runs. What waits is what was accepted since the last turn. A turn serves it in that
order, each piece for the owner that asked, and leaves out whoever was freed on the way. A run of any
length never hands an identity out twice, so no one inherits the work of another.
-/
namespace Patchbay.Host

def Step.work? : Step → Option (Identity × DeferredTask)
  | .send i m => m.work?.map (i, ·)
  | .sendLine i line => (Message.parse line).toOption.bind fun m => m.work?.map (i, ·)
  | _ => none

/-- The work that is taken on in a step: what it asks of an owner that is there. -/
def accepted (h : Host) (s : Step) : List (Identity × DeferredTask) :=
  (s.work?.filter fun w => h.present w.1).toList

/-- What was accepted since the last turn, and who was freed since. -/
structure Ledger where
  accepted : List (Identity × DeferredTask) := []
  freed : List Identity := []

/-- The work that is left when that of the freed is crossed out. -/
def Ledger.due (t : Ledger) : List (Identity × DeferredTask) := t.accepted.filter fun w => w.1 ∉ t.freed

def Ledger.lost (t : Ledger) : List (Identity × DeferredTask) := t.accepted.filter fun w => w.1 ∈ t.freed

theorem Ledger.due_or_lost (t : Ledger) : t.due.length + t.lost.length = t.accepted.length := by
  have split : t.accepted.length = _ :=
    List.length_eq_length_filter_add fun w => decide (w.1 ∉ t.freed)
  simp only [decide_not, Bool.not_not] at split
  simp only [due, lost, decide_not, ← split]

def enter (h : Host) (t : Ledger) : Step → Ledger
  | .turn => {}
  | .free i => if (h.free i).result then { t with freed := i :: t.freed } else t
  | s => { t with accepted := t.accepted ++ h.accepted s }

def ledger (h : Host) (t : Ledger) : List Step → Ledger
  | [] => t
  | s :: rest => (h.after s).1.ledger (h.enter t s) rest

/-- Work done piece by piece, each by the owner that it is for and on the host that the pieces before it
have left, with all that is sent back meanwhile. -/
inductive Served : Host → List (Identity × DeferredTask) → Host → List Event → Prop
  | done (h : Host) : Served h [] h []
  | next {h k : Host} {i : Identity} {o : Owner} {task : DeferredTask}
      {rest : List (Identity × DeferredTask)} {events : List Event}
      (found : h.owner? i = some o) (named : o.identity = i)
      (others : Served (h.absorb i (o.runTask h.surroundings task)).host rest k events) :
      Served h ((i, task) :: rest) k ((o.runTask h.surroundings task).events ++ events)

theorem pending_runTask (h : Host) (i : Identity) (o : Owner) (task : DeferredTask) :
    (h.absorb i (o.runTask h.surroundings task)).host.deferred.pending = h.deferred.pending := by
  rw [pending_absorb, Owner.tasks_runTask, List.map_nil, List.append_nil]

theorem served_runAll {h : Host} (sound : h.Sound) (work : List (Identity × DeferredTask)) :
    Served h (work.filter fun w => h.present w.1) (h.runAll work).host (h.runAll work).events ∧
      (h.runAll work).result = (work.filter fun w => h.present w.1).length ∧
      (h.runAll work).host.deferred.pending = h.deferred.pending := by
  induction work generalizing h with
  | nil => exact ⟨.done h, rfl, rfl⟩
  | cons w rest ih =>
    obtain ⟨i, task⟩ := w
    rw [runAll, runDeferred_host, runDeferred_events, runDeferred_result]
    cases found : h.owner? i with
    | none =>
      obtain ⟨served, ran, waits⟩ := ih sound
      rw [deliver_absent found, List.filter_cons_of_neg (by simp [present, found])]
      exact ⟨served, by simpa using ran, waits⟩
    | some o =>
      obtain ⟨served, ran, waits⟩ := ih (sound.absorb found (o.responds_runTask h.surroundings task))
      simp only [present_absorb] at served ran
      rw [deliver_found found, List.filter_cons_of_pos (by simp [present, found])]
      refine ⟨.next found (sound.named found) served, ?_, ?_⟩
      · rw [List.length_cons, ← ran, Nat.add_comm]
        rfl
      · rw [← pending_runTask h i o task]
        exact waits

theorem work_addressee {s : Step} {i : Identity} {w : Identity × DeferredTask}
    (goes : s.addressee? = some i) (work : s.work? = some w) : w.1 = i := by
  cases s <;> cases goes
  case send m =>
    obtain ⟨task, _, rfl⟩ := Option.map_eq_some_iff.mp work
    rfl
  case sendLine line =>
    obtain ⟨m, _, asked⟩ := Option.bind_eq_some_iff.mp work
    obtain ⟨task, _, rfl⟩ := Option.map_eq_some_iff.mp asked
    rfl
  all_goals cases work

/-- What an owner does in a step puts off just what the step asks for. -/
theorem response_tasks {s : Step} {i : Identity} (goes : s.addressee? = some i) (around : Surroundings)
    (o : Owner) :
    (match s.response? around o with
      | none => []
      | some r => r.tasks.map (i, ·)) = s.work?.toList := by
  cases s <;> cases goes
  case send m =>
    simp only [Step.response?, Step.work?, Owner.tasks_handle]
    cases m.work? <;> rfl
  case sendLine line =>
    cases parsed : Message.parse line with
    | error e => simp [Step.response?, Step.work?, parsed, Except.toOption]
    | ok m =>
      simp only [Step.response?, Step.work?, parsed, Except.toOption, Option.map_some, Option.bind_some,
        Owner.tasks_handle]
      cases m.work? <;> rfl
  case editorClosed text => rfl
  case editorSaved text => simp [Step.response?, Step.work?]

theorem accepted_addressed (h : Host) {s : Step} {i : Identity} (goes : s.addressee? = some i) :
    h.accepted s = if h.present i then s.work?.toList else [] := by
  cases work : s.work? with
  | none => simp [accepted, work]
  | some w =>
    cases here : h.present i <;> simp [accepted, work, work_addressee goes work, here]

theorem pending_addressed {h : Host} (sound : h.Sound) {s : Step} {i : Identity}
    (goes : s.addressee? = some i) :
    (h.after s).1.deferred.pending = h.deferred.pending ++ h.accepted s := by
  rw [after_addressed h goes, accepted_addressed h goes, present]
  cases found : h.owner? i with
  | none =>
    rw [deliver_absent found]
    simp
  | some o =>
    rw [deliver_found found, ← response_tasks goes h.surroundings o]
    cases done : s.response? h.surroundings o with
    | none => simp
    | some r =>
      have identity : r.owner.identity = i :=
        (response_responds done).identity.trans (sound.named found)
      simp [pending_absorb, identity]

/-- A ledger that is kept right: all that waits stands in it, whoever was freed is gone for good, and
the others that have work in it are still there. -/
structure Booked (h : Host) (t : Ledger) : Prop where
  sound : h.Sound
  waiting : h.deferred.pending = t.accepted
  gone : ∀ {i}, i ∈ t.freed → h.supply.Issued i ∧ h.present i = false
  there : ∀ {w}, w ∈ t.accepted → w.1 ∉ t.freed → h.present w.1 = true

namespace Booked

variable {h : Host} {t : Ledger}

theorem present_iff (booked : h.Booked t) {w : Identity × DeferredTask} (member : w ∈ t.accepted) :
    h.present w.1 = true ↔ w.1 ∉ t.freed := by
  constructor
  · intro here freed
    rw [(booked.gone freed).2] at here
    cases here
  · exact booked.there member

theorem due (booked : h.Booked t) : t.accepted.filter (fun w => h.present w.1) = t.due := by
  apply List.filter_congr
  intro w member
  simp [← booked.present_iff member]

theorem accepted_present {s : Step} {w : Identity × DeferredTask} (member : w ∈ h.accepted s) :
    h.present w.1 = true := by
  obtain ⟨_, here⟩ := Option.mem_filter_iff.mp (Option.mem_toList.mp member)
  exact here

theorem extend (booked : h.Booked t) {k : Host} {more : List (Identity × DeferredTask)} (sound : k.Sound)
    (pending : k.deferred.pending = h.deferred.pending ++ more)
    (later : h.supply.next ≤ k.supply.next)
    (same : ∀ j, h.supply.Issued j → k.present j = h.present j)
    (here : ∀ w ∈ more, h.present w.1 = true) :
    k.Booked { t with accepted := t.accepted ++ more } := by
  refine ⟨sound, by rw [pending, booked.waiting], ?_, ?_⟩
  · intro i freed
    obtain ⟨issued, absent⟩ := booked.gone freed
    exact ⟨issued.mono later, by rw [same i issued, absent]⟩
  · intro w member left
    rcases List.mem_append.mp member with earlier | fresh
    · rw [same w.1 (booked.sound.queued (booked.waiting ▸ earlier))]
      exact booked.there earlier left
    · obtain ⟨o, found⟩ := Option.isSome_iff_exists.mp (here w fresh)
      rw [same w.1 (booked.sound.issued found)]
      exact here w fresh

theorem addressed (booked : h.Booked t) {s : Step} {i : Identity} (goes : s.addressee? = some i) :
    (h.after s).1.Booked { t with accepted := t.accepted ++ h.accepted s } := by
  have supply : h.supply = (h.after s).1.supply := by
    rw [after_addressed h goes]
    exact (h.deliver_shared i _).2.1.symm
  apply booked.extend (booked.sound.after s) (pending_addressed booked.sound goes)
  · exact Nat.le_of_eq (congrArg Supply.next supply)
  · intro j _
    rw [after_addressed h goes]
    exact h.present_deliver i j _
  · intro w member
    exact accepted_present member

theorem free (booked : h.Booked t) (i : Identity) :
    (h.free i).host.Booked (h.enter t (.free i)) := by
  have sound := booked.sound.free i
  obtain ⟨_, deferred, supply⟩ := h.free_rest i
  simp only [enter, free_result]
  cases here : h.present i with
  | false =>
    have unchanged : (h.free i).host.deferred.pending = h.deferred.pending ++ [] := by
      rw [deferred, List.append_nil]
    have kept : ∀ j, (h.free i).host.present j = h.present j := by
      intro j
      rw [present_free]
      by_cases same : j = i
      · simp [same, here]
      · simp [same]
    have booked := booked.extend sound unchanged (supply ▸ Nat.le_refl _) (fun j _ => kept j) nofun
    rwa [List.append_nil] at booked
  | true =>
    refine ⟨sound, by rw [deferred]; exact booked.waiting, ?_, ?_⟩
    · intro j freed
      rw [supply, present_free]
      rcases List.mem_cons.mp freed with rfl | before
      · obtain ⟨o, found⟩ := Option.isSome_iff_exists.mp here
        exact ⟨booked.sound.issued found, by simp⟩
      · obtain ⟨issued, absent⟩ := booked.gone before
        exact ⟨issued, by simp [absent]⟩
    · intro w member left
      simp only [if_true, List.mem_cons, not_or] at left
      rw [present_free, booked.there member left.2]
      simp [left.1]

theorem turn (booked : h.Booked t) : h.turn.host.Booked {} := by
  refine ⟨booked.sound.turn, ?_, by simp, by simp⟩
  exact (served_runAll booked.sound.emptied h.deferred.pending).2.2

theorem after (booked : h.Booked t) (s : Step) : (h.after s).1.Booked (h.enter t s) := by
  have sound := booked.sound.after s
  cases s
  case spawn settings room =>
    have unchanged : (h.spawn settings room).host.deferred.pending = h.deferred.pending ++ [] := by
      rw [(h.spawn_rest settings room).2, List.append_nil]
    exact booked.extend sound unchanged (booked.sound.supply_spawn settings room)
      (fun j issued => booked.sound.present_spawn settings room issued) nofun
  case free i => exact booked.free i
  case turn => exact booked.turn
  case register m =>
    obtain ⟨l, _, host⟩ := h.host_register m
    have registered : (h.after (.register m)).1 = { h with lifecycle := l } := host
    rw [registered] at sound ⊢
    exact booked.extend sound (List.append_nil _).symm (Nat.le_refl _) (fun _ _ => rfl) nofun
  case changeFiles f =>
    exact booked.extend sound (List.append_nil _).symm (Nat.le_refl _) (fun _ _ => rfl) nofun
  case skipIdentities n =>
    exact booked.extend sound (List.append_nil _).symm (Nat.le_add_right _ _) (fun _ _ => rfl) nofun
  all_goals exact booked.addressed rfl

theorem run (booked : h.Booked t) (steps : List Step) : (h.run steps).1.Booked (h.ledger t steps) := by
  induction steps generalizing h t with
  | nil => exact booked
  | cons s rest ih => exact ih (booked.after s)

end Booked

/-- In every run, a turn does exactly what was accepted since the turn before, less the work of whoever
was freed since, in the order in which it was asked for. Each piece is done by the owner that asked and
sees what the pieces before it did; a piece that is left out does nothing. The turn tells how many it
did and leaves none. What asks for a file is accepted unless it is reported, and nobody who comes later
takes over work that waits. -/
theorem turn_serves_due (settings : InterpreterSettings) (supply : Supply) (files : Files.Tree)
    (roots : List String) (steps : List Step) :
    let start := opening settings supply files roots
    let h := (start.run steps).1
    let t := start.ledger {} steps
    h.deferred.pending = t.accepted ∧
      Served { h with deferred := {} } t.due h.turn.host h.turn.events ∧
      h.turn.result = t.due.length ∧
      h.turn.result + t.lost.length = h.pending ∧
      h.turn.host.pending = 0 ∧
      (∀ i o m, h.owner? i = some o → m.selector = "load" ∨ m.selector = "read" →
        (∃ task, m.work? = some task ∧ (h.send i m).events = []) ∨
        (m.work? = none ∧ ∃ text,
          (h.send i m).events = [.reported (.make i m.selector "" text)])) ∧
      (∀ settings room i, (h.spawn settings room).result = .ok i → ∀ w ∈ t.accepted, w.1 ≠ i) := by
  intro start h t
  have opened : start.Booked {} := ⟨sound_opening settings supply files roots, rfl, by simp, by simp⟩
  have booked : h.Booked t := opened.run steps
  obtain ⟨served, ran, left⟩ := served_runAll booked.sound.emptied h.deferred.pending
  rw [booked.waiting] at served ran
  have due : t.accepted.filter (fun w => present { h with deferred := {} } w.1) = t.due := booked.due
  rw [due] at served ran
  have result : h.turn.result = t.due.length := by
    rw [← ran, ← booked.waiting]
    rfl
  refine ⟨booked.waiting, ?_, result, ?_, ?_, ?_, ?_⟩
  · rw [← booked.waiting] at served
    exact served
  · rw [result, t.due_or_lost, ← booked.waiting]
    rfl
  · exact congrArg List.length left
  · intro i o m found asks
    have does := o.handle_defers h.surroundings asks
    rw [booked.sound.named found] at does
    simpa only [send, found, absorb] using does
  · intro settings room i ok w member same
    apply booked.sound.spawn_result ok
    rw [← same]
    exact booked.sound.queued (booked.waiting ▸ member)

end Patchbay.Host
