import Patchbay.Proofs.Host.Census

/-!
What one owner is asked to do shows through no other. A run is compared with the same run in which
that owner is asked for nothing, while owners still come and go and files still change as before. Every
namespace has a machine for itself, on which clock and random numbers stand still. A limit on memory is
not spoken of: it bounds each machine alone here, while the engine has one for all.
-/
namespace Patchbay.Host

/-- The steps of a run in which an owner is asked for nothing. -/
def sparing (a : Identity) (steps : List Step) : List Step := steps.filter fun s => s.addressee? ≠ some a

/-- Two hosts that only differ in what one owner holds and in the work that waits for it, of which the
second host has none. -/
structure Apart (a : Identity) (h k : Host) : Prop where
  lifecycle : k.lifecycle = h.lifecycle
  supply : k.supply = h.supply
  files : k.files = h.files
  roots : k.roots = h.roots
  others : ∀ {i}, i ≠ a → k.owner? i = h.owner? i
  there : k.present a = h.present a
  waiting : k.deferred.pending = h.deferred.pending.filter fun w => w.1 ≠ a

theorem apart_same {h : Host} (a : Identity) (idle : h.deferred.pending = []) : Apart a h h :=
  ⟨rfl, rfl, rfl, rfl, fun _ => rfl, rfl, by simp [idle]⟩

theorem named_deliver {h : Host} (sound : h.Sound) {i : Identity} {f : Owner → Option Response}
    (responds : ∀ o r, f o = some r → o.Responds r) : ∀ e ∈ (h.deliver i f).2, e.owner = i := by
  cases found : h.owner? i with
  | none => simp [deliver_absent found]
  | some o =>
    rw [deliver_found found]
    cases done : f o with
    | none => simp
    | some r =>
      intro e member
      rw [(responds o r done).named e member, sound.named found]

theorem filter_of_other {a i : Identity} {events : List Event} (named : ∀ e ∈ events, e.owner = i)
    (ne : i ≠ a) : events.filter (fun e => e.owner ≠ a) = events := by
  apply List.filter_eq_self.mpr
  intro e member
  simp [named e member, ne]

theorem filter_of_self {a : Identity} {events : List Event} (named : ∀ e ∈ events, e.owner = a) :
    events.filter (fun e => e.owner ≠ a) = [] := by
  apply List.filter_eq_nil_iff.mpr
  intro e member
  simp [named e member]

namespace Apart

variable {a : Identity} {h k : Host}

theorem present (apart : Apart a h k) (i : Identity) : k.present i = h.present i := by
  by_cases self : i = a
  · rw [self]
    exact apart.there
  · simp only [Host.present, apart.others self]

theorem surroundings (apart : Apart a h k) : k.surroundings = h.surroundings := by
  simp only [Host.surroundings, apart.lifecycle, apart.files, apart.roots]

theorem absorb_self (apart : Apart a h k) {r : Response} (identity : r.owner.identity = a) :
    Apart a (h.absorb a r).host k := by
  refine ⟨apart.lifecycle, apart.supply, apart.files, apart.roots, ?_, ?_, ?_⟩
  · intro i other
    rw [owner?_absorb, if_neg other]
    exact apart.others other
  · rw [present_absorb]
    exact apart.there
  · rw [pending_absorb, List.filter_append, apart.waiting, identity]
    simp

theorem absorb (apart : Apart a h k) {i : Identity} {r : Response} (other : i ≠ a)
    (identity : r.owner.identity = i) : Apart a (h.absorb i r).host (k.absorb i r).host := by
  refine ⟨apart.lifecycle, apart.supply, apart.files, apart.roots, ?_, ?_, ?_⟩
  · intro j different
    rw [owner?_absorb, owner?_absorb, apart.others different]
  · rw [present_absorb, present_absorb]
    exact apart.there
  · rw [pending_absorb, pending_absorb, List.filter_append, apart.waiting, identity]
    simp [List.filter_eq_self.mpr, other]

theorem deliver_self (apart : Apart a h k) (sound : h.Sound) {f : Owner → Option Response}
    (responds : ∀ o r, f o = some r → o.Responds r) : Apart a (h.deliver a f).1 k := by
  apply deliver_keeps (P := fun host => Apart a host k) apart
  intro o r found done
  exact apart.absorb_self ((responds o r done).identity.trans (sound.named found))

theorem deliver (apart : Apart a h k) (sound : h.Sound) {i : Identity} (other : i ≠ a)
    {f : Owner → Option Response} (responds : ∀ o r, f o = some r → o.Responds r) :
    Apart a (h.deliver i f).1 (k.deliver i f).1 ∧ (k.deliver i f).2 = (h.deliver i f).2 := by
  have same := apart.others other
  cases found : h.owner? i with
  | none =>
    rw [found] at same
    rw [deliver_absent found, deliver_absent same]
    exact ⟨apart, rfl⟩
  | some o =>
    rw [found] at same
    rw [deliver_found found, deliver_found same]
    cases done : f o with
    | none => exact ⟨apart, rfl⟩
    | some r =>
      have identity : r.owner.identity = i :=
        (responds o r done).identity.trans (sound.named found)
      exact ⟨apart.absorb other identity, rfl⟩

theorem spawn (apart : Apart a h k) (sound : h.Sound) (sound' : k.Sound) (settings : OwnerSettings)
    (room : Room) : Apart a (h.spawn settings room).host (k.spawn settings room).host := by
  unfold Host.spawn
  rw [apart.lifecycle, apart.supply]
  dsimp only
  split
  · exact ⟨rfl, rfl, apart.files, apart.roots, apart.others, apart.there, apart.waiting⟩
  · rename_i o made
    have identity := (Owner.make_ok sound.coherent made).2.2.2.2
    have absent : h.roster.get? o.identity = none := identity ▸ sound.fresh
    have absent' : k.roster.get? o.identity = none := by
      rw [identity, ← apart.supply]
      exact sound'.fresh
    simp only [Host.enroll, Host.owner?, absent, absent']
    refine ⟨rfl, rfl, apart.files, apart.roots, ?_, ?_, apart.waiting⟩
    · intro i other
      have same := apart.others other
      simp only [Host.owner?, Roster.get?_insert] at same ⊢
      rw [same]
    · have same := apart.there
      simp only [Host.present, Host.owner?, Roster.get?_insert] at same ⊢
      split
      · rfl
      · exact same

theorem free (apart : Apart a h k) (i : Identity) : Apart a (h.free i).host (k.free i).host := by
  have there := apart.present i
  unfold Host.present at there
  unfold Host.free
  cases found : h.owner? i with
  | none =>
    have absent : k.owner? i = none := by simpa [found] using there
    rw [absent]
    exact apart
  | some o =>
    rw [found] at there
    obtain ⟨p, found'⟩ := Option.isSome_iff_exists.mp there
    rw [found']
    refine ⟨?_, apart.supply, apart.files, apart.roots, ?_, ?_, apart.waiting⟩
    · simp only [dismiss, apart.lifecycle]
      rfl
    · intro j other
      have same := apart.others other
      simp only [Host.owner?, Roster.get?_erase] at same ⊢
      rw [same]
    · have same := apart.there
      simp only [Host.present, Host.owner?, Roster.get?_erase] at same ⊢
      split
      · rfl
      · exact same

theorem runAll (apart : Apart a h k) (sound : h.Sound) (work : List (Identity × DeferredTask)) :
    Apart a (h.runAll work).host (k.runAll (work.filter fun w => w.1 ≠ a)).host ∧
      (k.runAll (work.filter fun w => w.1 ≠ a)).events =
        (h.runAll work).events.filter fun e => e.owner ≠ a := by
  induction work generalizing h k with
  | nil => exact ⟨apart, rfl⟩
  | cons w rest ih =>
    obtain ⟨i, task⟩ := w
    have responds : ∀ (o : Owner) r, some (o.runTask h.surroundings task) = some r → o.Responds r :=
      fun _ _ does => task_responds does
    have named := named_deliver sound (i := i) responds
    have still := sound.deliver (i := i) responds
    rw [Host.runAll, runDeferred_host, runDeferred_events]
    dsimp only
    by_cases self : i = a
    · subst self
      obtain ⟨later, sent⟩ := ih (apart.deliver_self sound responds) still
      rw [List.filter_cons_of_neg (by simp), List.filter_append, filter_of_self named, List.nil_append]
      exact ⟨later, sent⟩
    · obtain ⟨now, same⟩ := apart.deliver sound self responds
      obtain ⟨later, sent⟩ := ih now still
      rw [List.filter_cons_of_pos (by simp [self]), List.filter_append, filter_of_other named self,
        Host.runAll, runDeferred_host, runDeferred_events, apart.surroundings, same]
      exact ⟨later, congrArg _ sent⟩

theorem turn (apart : Apart a h k) (sound : h.Sound) :
    Apart a h.turn.host k.turn.host ∧ k.turn.events = h.turn.events.filter fun e => e.owner ≠ a := by
  have emptied : Apart a { h with deferred := {} } { k with deferred := {} } :=
    ⟨apart.lifecycle, apart.supply, apart.files, apart.roots, apart.others, apart.there, rfl⟩
  have ran := emptied.runAll sound.emptied h.deferred.pending
  rw [← apart.waiting] at ran
  exact ran

theorem register (apart : Apart a h k) (m : BuiltinModule) :
    Apart a (h.register m).host (k.register m).host := by
  unfold Host.register
  rw [apart.lifecycle]
  split
  · exact ⟨rfl, apart.supply, apart.files, apart.roots, apart.others, apart.there, apart.waiting⟩
  · exact apart

/-- A step that asks the one owner for something leaves the hosts as they were to the others. -/
theorem after_self (apart : Apart a h k) (sound : h.Sound) {s : Step} (goes : s.addressee? = some a) :
    Apart a (h.after s).1 k ∧ (h.after s).2.filter (fun e => e.owner ≠ a) = [] := by
  rw [after_addressed h goes]
  have responds : ∀ o r, s.response? h.surroundings o = some r → o.Responds r :=
    fun _ _ done => response_responds done
  exact ⟨apart.deliver_self sound responds, filter_of_self (named_deliver sound responds)⟩

theorem after_other (apart : Apart a h k) (sound : h.Sound) {s : Step} {i : Identity}
    (goes : s.addressee? = some i) (other : i ≠ a) :
    Apart a (h.after s).1 (k.after s).1 ∧
      (k.after s).2 = (h.after s).2.filter fun e => e.owner ≠ a := by
  have responds : ∀ o r, s.response? h.surroundings o = some r → o.Responds r :=
    fun _ _ done => response_responds done
  rw [after_addressed h goes, after_addressed k goes, apart.surroundings,
    filter_of_other (named_deliver sound responds) other]
  exact apart.deliver sound other responds

/-- Any other step is the same on both hosts. -/
theorem after (apart : Apart a h k) (sound : h.Sound) (sound' : k.Sound) {s : Step}
    (elsewhere : s.addressee? ≠ some a) :
    Apart a (h.after s).1 (k.after s).1 ∧
      (k.after s).2 = (h.after s).2.filter fun e => e.owner ≠ a := by
  cases s
  case spawn settings room =>
    refine ⟨apart.spawn sound sound' settings room, ?_⟩
    simp [Host.after, Report.outcome, spawn_rest]
  case free i =>
    refine ⟨apart.free i, ?_⟩
    simp [Host.after, Report.outcome, free_rest]
  case turn => exact apart.turn sound
  case register m =>
    refine ⟨apart.register m, ?_⟩
    simp [Host.after, Report.outcome, events_register]
  case changeFiles f =>
    exact ⟨⟨apart.lifecycle, apart.supply, congrArg f apart.files, apart.roots, apart.others,
      apart.there, apart.waiting⟩, rfl⟩
  case skipIdentities n =>
    exact ⟨⟨apart.lifecycle, congrArg (·.skip n) apart.supply, apart.files, apart.roots, apart.others,
      apart.there, apart.waiting⟩, rfl⟩
  all_goals exact apart.after_other sound rfl fun same => elsewhere (congrArg some same)

theorem run (apart : Apart a h k) (sound : h.Sound) (sound' : k.Sound) (steps : List Step) :
    Apart a (h.run steps).1 (k.run (sparing a steps)).1 ∧
      (k.run (sparing a steps)).2 = (h.run steps).2.filter fun e => e.owner ≠ a := by
  induction steps generalizing h k with
  | nil => exact ⟨apart, rfl⟩
  | cons s rest ih =>
    by_cases goes : s.addressee? = some a
    · obtain ⟨still, unseen⟩ := apart.after_self sound goes
      obtain ⟨later, sent⟩ := ih still (sound.after s) sound'
      have spared : sparing a (s :: rest) = sparing a rest := by simp [sparing, goes]
      rw [spared]
      refine ⟨later, ?_⟩
      rw [sent, Host.run, List.filter_append, unseen, List.nil_append]
    · obtain ⟨still, same⟩ := apart.after sound sound' goes
      obtain ⟨later, sent⟩ := ih still (sound.after s) (sound'.after s)
      have kept : sparing a (s :: rest) = s :: sparing a rest := by simp [sparing, goes]
      rw [kept]
      refine ⟨later, ?_⟩
      rw [Host.run, Host.run, sent, same, List.filter_append]

end Apart

/-- What one owner is asked shows through no other, in any run and at any point of it: were it never
asked, the others would have been sent the same in the same order and would hold the same, their
settings with the remembered file, their text and all that their scripts have made. -/
theorem owners_isolated (settings : InterpreterSettings) (supply : Supply) (files : Files.Tree)
    (roots : List String) (steps : List Step) (a : Identity) :
    let start := opening settings supply files roots
    (start.run (sparing a steps)).2 = ((start.run steps).2.filter fun e => e.owner ≠ a) ∧
      ∀ b, b ≠ a →
        ((start.run (sparing a steps)).2.filter fun e => e.owner = b) =
          ((start.run steps).2.filter fun e => e.owner = b) ∧
        (start.run (sparing a steps)).1.owner? b = (start.run steps).1.owner? b := by
  intro start
  have sound : start.Sound := sound_opening settings supply files roots
  obtain ⟨apart, sent⟩ := (apart_same a rfl).run sound sound steps
  refine ⟨sent, ?_⟩
  intro b other
  refine ⟨?_, apart.others other⟩
  rw [sent, List.filter_filter]
  apply List.filter_congr
  intro e _
  by_cases mine : e.owner = b
  · simp [mine, other]
  · simp [mine]

end Patchbay.Host
