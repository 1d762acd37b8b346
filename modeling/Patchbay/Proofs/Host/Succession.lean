import Patchbay.Proofs.Host.Refusal
import Mathlib.Data.List.Nodup

/-!
Who comes after whom. Every namespace that a process asks for draws the next identity, whether it is
made or refused, so no identity is drawn twice. A host therefore never puts an owner in the place of
another, and whoever is freed stays gone, with the work that waits for it, whatever happens to the host
or to its lifecycle later.
-/
namespace Patchbay

/-- A namespace that is asked for: of which lifecycle, as it then is, and whether there is room. -/
structure Creation where
  lifecycle : Lifecycle
  granted : Bool

namespace Creation

def drawn (c : Creation) (s : Supply) : Option Identity :=
  match (c.lifecycle.createNamespace s c.granted).1 with
  | .ok (n, _, _) => some n.identity
  | .error .noRoom => some s.take.1
  | .error _ => none

def supply (c : Creation) (s : Supply) : Supply := (c.lifecycle.createNamespace s c.granted).2

theorem drawn_cases (c : Creation) (s : Supply) :
    (c.drawn s = none ∧ c.supply s = s) ∨
      (c.drawn s = some s.take.1 ∧ c.supply s = s.take.2) := by
  obtain ⟨l, granted⟩ := c
  unfold drawn supply
  cases running : l.interpreter with
  | none =>
    rw [Lifecycle.createNamespace_stopped running]
    exact .inl ⟨rfl, rfl⟩
  | some i =>
    rcases made : l.createNamespace s granted with ⟨e | ⟨n, k, log⟩, t⟩
    · obtain ⟨rfl, rfl⟩ := Lifecycle.createNamespace_refused (by simp [running]) made
      exact .inr ⟨rfl, rfl⟩
    · obtain ⟨_, _, rfl, identity⟩ := Lifecycle.createNamespace_ok made
      exact .inr ⟨congrArg some identity, rfl⟩

end Creation

namespace Supply

def handedOut (s : Supply) : List Creation → List Identity
  | [] => []
  | c :: rest => (c.drawn s).toList ++ (c.supply s).handedOut rest

theorem handedOut_eq (s : Supply) (creations : List Creation) :
    ∃ n ≤ creations.length, s.handedOut creations = (List.range' s.next n).map Identity.ofNat := by
  induction creations generalizing s with
  | nil => exact ⟨0, Nat.le_refl _, rfl⟩
  | cons c rest ih =>
    obtain ⟨n, bound, later⟩ := ih (c.supply s)
    rw [handedOut, later, List.length_cons]
    obtain ⟨none, same⟩ | ⟨one, next⟩ := c.drawn_cases s
    · rw [none, same]
      exact ⟨n, by omega, rfl⟩
    · rw [one, next]
      exact ⟨n + 1, by omega, rfl⟩

theorem handedOut_texts (s : Supply) (creations : List Creation) :
    ((s.handedOut creations).map Identity.text).Nodup := by
  obtain ⟨n, _, same⟩ := s.handedOut_eq creations
  have injective : Function.Injective fun k => (Identity.ofNat k).text := by
    intro a b equal
    exact Identity.ofNat_injective (congrArg Identity.mk equal)
  rw [same, List.map_map]
  exact List.Nodup.map injective List.nodup_range'

theorem handedOut_words (creations : List Creation) (few : creations.length < UInt64.size) :
    ∃ n, handedOut {} creations = (List.range n).map fun k => .ofNat (1 + UInt64.ofNat k).toNat := by
  obtain ⟨n, bound, same⟩ := handedOut_eq {} creations
  refine ⟨n, ?_⟩
  rw [same, List.range'_eq_map_range, List.map_map]
  apply List.map_congr_left
  intro k member
  -- The last number is one below the bound, so the count has not yet begun again at zero.
  have small : k < n := List.mem_range.mp member
  have number : (1 + UInt64.ofNat k).toNat = 1 + k := by
    rw [UInt64.toNat_add, UInt64.toNat_ofNat']
    change (1 + k % UInt64.size) % UInt64.size = 1 + k
    rw [Nat.mod_eq_of_lt (by omega : k < UInt64.size), Nat.mod_eq_of_lt (by omega)]
  exact congrArg Identity.ofNat number.symm

end Supply

theorem Bench.supply_after (b : Bench) (s : Bench.Step) : b.supply.next ≤ (b.after s).supply.next := by
  cases s with
  | register m =>
    simp only [after, register]
    split <;> exact Nat.le_refl _
  | acquire granted =>
    simp only [after, acquire]
    split <;> exact Nat.le_refl _
  | release => exact Nat.le_refl _
  | lease granted =>
    simp only [after, lease]
    split <;> exact Nat.le_refl _
  | dropLease index =>
    simp only [after, dropLease]
    split <;> exact Nat.le_refl _
  | createNamespace granted =>
    rcases made : b.lifecycle.createNamespace b.supply granted with ⟨e | ⟨n, l, log⟩, s⟩
    · simp only [after, createNamespace, made]
      obtain rfl | rfl := Lifecycle.createNamespace_error made
      · exact Nat.le_refl _
      · exact Nat.le_succ _
    · simp only [after, createNamespace, made]
      obtain ⟨_, _, rfl, _⟩ := Lifecycle.createNamespace_ok made
      exact Nat.le_succ _
  | dropNamespace index =>
    simp only [after, dropNamespace]
    split <;> exact Nat.le_refl _

namespace Host

/-- A host that can come of another one, by its own steps and by those of others on its lifecycle. -/
inductive Later (h : Host) : Host → Prop
  | here : Later h h
  | after {k : Host} (s : Step) (before : Later h k) : Later h (k.after s).1
  | elsewhere {k : Host} (s : Bench.Step) (leases : List Bool) (namespaces : List (Option Namespace))
      (before : Later h k) : Later h (k.beside ((k.outside leases namespaces).after s))

def Drawn (h k : Host) (i : Identity) : Prop := k.supply.Issued i ∧ ¬ h.supply.Issued i

/-- A host goes on from another one: whoever is there, or has work waiting, has been there before, or
comes under an identity that was not handed out before. -/
structure Follows (h k : Host) : Prop where
  later : h.supply.next ≤ k.supply.next
  there : ∀ {i}, k.present i = true → h.present i = true ∨ h.Drawn k i
  waiting : ∀ {w}, w ∈ k.deferred.pending →
    w ∈ h.deferred.pending ∨ h.present w.1 = true ∨ h.Drawn k w.1

namespace Follows

variable {h k : Host}

theorem refl (h : Host) : h.Follows h := ⟨Nat.le_refl _, .inl, .inl⟩

theorem trans {l : Host} (first : h.Follows k) (second : k.Follows l) : h.Follows l := by
  -- What was drawn first stays drawn, and what is drawn later was not drawn at first.
  have drawn : ∀ {i}, h.Drawn k i → h.Drawn l i := fun drawn =>
    ⟨drawn.1.mono second.later, drawn.2⟩
  have fresh : ∀ {i}, k.Drawn l i → h.Drawn l i := fun drawn =>
    ⟨drawn.1, fun before => drawn.2 (before.mono first.later)⟩
  refine ⟨Nat.le_trans first.later second.later, ?_, ?_⟩
  · intro i here
    rcases second.there here with before | new
    · exact (first.there before).imp_right drawn
    · exact .inr (fresh new)
  · intro w member
    rcases second.waiting member with before | there | new
    · exact (first.waiting before).imp_right (.imp_right drawn)
    · exact .inr ((first.there there).imp_right drawn)
    · exact .inr (.inr (fresh new))

theorem of_same (later : h.supply.next ≤ k.supply.next)
    (there : ∀ i, k.present i = true → h.present i = true)
    (waiting : ∀ w ∈ k.deferred.pending, w ∈ h.deferred.pending) : h.Follows k :=
  ⟨later, fun here => .inl (there _ here), fun member => .inl (waiting _ member)⟩

theorem of_free (h : Host) (i : Identity) : h.Follows (h.free i).host := by
  obtain ⟨_, deferred, supply⟩ := h.free_rest i
  refine .of_same (Nat.le_of_eq (congrArg Supply.next supply.symm)) ?_ ?_
  · intro j here
    rw [present_free] at here
    exact (Bool.and_eq_true_iff.mp here).1
  · intro w member
    rwa [deferred] at member

theorem of_elsewhere (h : Host) (s : Bench.Step) (leases : List Bool)
    (namespaces : List (Option Namespace)) :
    h.Follows (h.beside ((h.outside leases namespaces).after s)) :=
  .of_same (Bench.supply_after (h.outside leases namespaces) s) (fun _ here => here) fun _ member => member

end Follows

namespace Regular

variable {h : Host}

theorem follows_absorb (regular : h.Regular) {i : Identity} {o : Owner} {r : Response}
    (found : h.owner? i = some o) (responds : o.Responds r) : h.Follows (h.absorb i r).host := by
  have identity : r.owner.identity = i := responds.identity.trans (regular.named found)
  refine ⟨Nat.le_refl _, ?_, ?_⟩
  · intro j here
    rw [present_absorb] at here
    exact .inl here
  · intro w member
    rw [pending_absorb, List.mem_append] at member
    rcases member with before | fresh
    · exact .inl before
    · obtain ⟨_, _, rfl⟩ := List.mem_map.mp fresh
      refine .inr (.inl ?_)
      rw [identity, present, found, Option.isSome_some]

theorem follows_deliver (regular : h.Regular) {i : Identity} {f : Owner → Option Response}
    (responds : ∀ o r, f o = some r → o.Responds r) : h.Follows (h.deliver i f).1 :=
  deliver_keeps (.refl h) fun o r found done => regular.follows_absorb found (responds o r done)

theorem follows_runAll (regular : h.Regular) (work : List (Identity × DeferredTask)) :
    h.Follows (h.runAll work).host := by
  refine (runAll_keeps (P := fun k => k.Regular ∧ h.Follows k) ?_ ⟨regular, .refl h⟩ work).2
  rintro k i task ⟨regular, follows⟩
  have responds : ∀ (o : Owner) r, some (o.runTask k.surroundings task) = some r → o.Responds r :=
    fun _ _ does => task_responds does
  exact ⟨regular.deliver responds, follows.trans (regular.follows_deliver responds)⟩

theorem spawn_ok (regular : h.Regular) {settings : OwnerSettings} {room : Room} {i : Identity}
    (ok : (h.spawn settings room).result = .ok i) :
    ∃ o : Owner, o.identity = i ∧ i = h.supply.take.1 ∧
      (h.spawn settings room).host.supply = h.supply.take.2 ∧
      (h.spawn settings room).host.roster = h.roster.insert i o := by
  unfold Host.spawn at ok ⊢
  dsimp only at ok ⊢
  split at ok
  · cases ok
  · rename_i o made
    cases ok
    obtain ⟨_, _, _, supply, identity⟩ := Owner.make_ok regular.coherent made
    exact ⟨o, rfl, identity, supply, rfl⟩

theorem follows_spawn (regular : h.Regular) (settings : OwnerSettings) (room : Room) :
    h.Follows (h.spawn settings room).host := by
  have waiting := (h.spawn_rest settings room).2
  cases result : (h.spawn settings room).result with
  | error e =>
    obtain ⟨failed, left⟩ := spawn_refused result
    have later := (Owner.make_error regular.coherent failed).2.2.2
    rw [left]
    exact .of_same later (fun _ here => here) fun _ member => member
  | ok i =>
    obtain ⟨o, _, next, supply, roster⟩ := regular.spawn_ok result
    refine ⟨?_, ?_, ?_⟩
    · rw [supply]
      exact Nat.le_succ _
    · intro j here
      rw [present, owner?, roster, Roster.get?_insert] at here
      split at here
      · rename_i same
        refine .inr ⟨?_, ?_⟩
        · rw [supply, same, next]
          exact h.supply.issued_take
        · rw [same, next]
          exact h.supply.not_issued_take
      · exact .inl here
    · intro w member
      rw [waiting] at member
      exact .inl member

theorem follows_after (regular : h.Regular) (s : Step) : h.Follows (h.after s).1 := by
  have moved := h.moves s
  generalize (h.after s).1 = k at moved ⊢
  cases moved with
  | spawns settings room => exact regular.follows_spawn settings room
  | frees i => exact .of_free h i
  | delivers => exact regular.follows_deliver fun o r done => response_responds done
  | serves work =>
    have begun : h.Follows { h with deferred := {} } :=
      .of_same (Nat.le_refl _) (fun _ here => here) nofun
    exact begun.trans (regular.emptied.follows_runAll work)
  | registers | files => exact .of_same (Nat.le_refl _) (fun _ here => here) fun _ member => member
  | skips => exact .of_same (Nat.le_add_right _ _) (fun _ here => here) fun _ member => member

end Regular

theorem Later.follows {h k : Host} (later : h.Later k) (regular : h.Regular) :
    k.Regular ∧ h.Follows k := by
  induction later with
  | here => exact ⟨regular, .refl h⟩
  | after s _ ih => exact ⟨ih.1.after s, ih.2.trans (ih.1.follows_after s)⟩
  | elsewhere s leases namespaces _ ih =>
    exact ⟨ih.1.elsewhere s leases namespaces,
      ih.2.trans (Follows.of_elsewhere _ s leases namespaces)⟩

theorem Reachable.follows {h : Host} (reachable : h.Reachable) :
    ∃ settings supply files roots, (Host.opening settings supply files roots).Follows h := by
  induction reachable with
  | opening settings supply files roots => exact ⟨settings, supply, files, roots, .refl _⟩
  | after s before ih =>
    obtain ⟨settings, supply, files, roots, follows⟩ := ih
    exact ⟨settings, supply, files, roots, follows.trans (before.regular.follows_after s)⟩
  | elsewhere s leases namespaces before ih =>
    obtain ⟨settings, supply, files, roots, follows⟩ := ih
    exact ⟨settings, supply, files, roots,
      follows.trans (Follows.of_elsewhere _ s leases namespaces)⟩

theorem Reachable.issued {h : Host} (reachable : h.Reachable) {i : Identity}
    (here : h.present i = true) : h.supply.Issued i := by
  obtain ⟨_, _, _, _, follows⟩ := reachable.follows
  rcases follows.there here with before | drawn
  · cases before
  · exact drawn.1

theorem Reachable.queued {h : Host} (reachable : h.Reachable) {w : Identity × DeferredTask}
    (member : w ∈ h.deferred.pending) : h.supply.Issued w.1 := by
  obtain ⟨_, _, _, _, follows⟩ := reachable.follows
  rcases follows.waiting member with before | there | drawn
  · cases before
  · cases there
  · exact drawn.1

def relieved (h : Host) (i : Identity) : Host :=
  { h with deferred := ⟨h.deferred.pending.filter fun w => w.1 ≠ i⟩ }

/-- Nobody is under an identity. Whatever is asked of it is refused and does nothing to the host, and the
work that waits for it might as well not be there. -/
structure Gone (h : Host) (i : Identity) : Prop where
  absent : h.owner? i = none
  free : (h.free i).result = false ∧ (h.free i).outcome = (h, [])
  send : ∀ m, (h.send i m).result = false ∧ (h.send i m).outcome = (h, [])
  sendLine : ∀ line, (∀ m, Message.parse line = .ok m → (h.sendLine i line).result = .ok false) ∧
    (h.sendLine i line).outcome = (h, [])
  editorClosed : ∀ text,
    (h.editorClosed i text).result = false ∧ (h.editorClosed i text).outcome = (h, [])
  editorSaved : ∀ text,
    (h.editorSaved i text).result = false ∧ (h.editorSaved i text).outcome = (h, [])
  turn : h.turn.result = (h.relieved i).turn.result ∧ h.turn.outcome = (h.relieved i).turn.outcome

theorem runAll_relieved {h : Host} {i : Identity} (absent : h.present i = false)
    (work : List (Identity × DeferredTask)) :
    (h.runAll work).result = (h.runAll (work.filter fun w => w.1 ≠ i)).result ∧
      (h.runAll work).outcome = (h.runAll (work.filter fun w => w.1 ≠ i)).outcome := by
  induction work generalizing h with
  | nil => exact ⟨rfl, rfl⟩
  | cons w rest ih =>
    obtain ⟨j, task⟩ := w
    by_cases same : j = i
    · subst same
      have nobody : h.owner? j = none := by simpa [present] using absent
      obtain ⟨result, outcome⟩ := ih absent
      rw [List.filter_cons_of_neg (by simp), ← result, ← outcome]
      simp [runAll, runDeferred, nobody, Report.outcome]
    · -- Nobody comes while the others work, so the rest is left out from the host after this piece too.
      have still : (h.runDeferred j task).host.present i = false := by
        rw [runDeferred_host, present_deliver, absent]
      obtain ⟨result, outcome⟩ := ih still
      obtain ⟨host, events⟩ := Prod.mk.inj outcome
      rw [List.filter_cons_of_pos (by simp [same])]
      simp only [runAll, Report.outcome, result, host, events, and_self]

theorem gone_of_absent {h : Host} {i : Identity} (absent : h.present i = false) : h.Gone i := by
  have nobody : h.owner? i = none := by simpa [present] using absent
  refine ⟨nobody, ?_, ?_, ?_, ?_, ?_, ?_⟩
  · simp [free, nobody, Report.outcome]
  · simp [send, nobody, Report.outcome]
  · intro line
    cases parsed : Message.parse line with
    | error e => simp [sendLine, parsed, Report.outcome]
    | ok m => simp [sendLine, parsed, send, nobody, Report.outcome]
  · simp [editorClosed, nobody, Report.outcome]
  · simp [editorSaved, nobody, Report.outcome]
  · have emptied : present { h with deferred := {} } i = false := absent
    exact runAll_relieved emptied h.deferred.pending

theorem Reachable.freed_gone {h k : Host} (reachable : h.Reachable) {i : Identity}
    (freed : (h.free i).result = true) (later : (h.free i).host.Later k) : k.Gone i := by
  rw [free_result] at freed
  -- It was handed out before, so it can neither be left over nor be drawn again.
  have issued : (h.free i).host.supply.Issued i := by
    rw [(h.free_rest i).2.2]
    exact reachable.issued freed
  obtain ⟨_, follows⟩ := later.follows (reachable.regular.free i)
  apply gone_of_absent
  apply Bool.eq_false_iff.mpr
  intro here
  rcases follows.there here with before | drawn
  · simp [present_free] at before
  · exact drawn.2 issued

theorem Reachable.spawned_new {h : Host} (reachable : h.Reachable) {settings : OwnerSettings} {room : Room}
    {i : Identity} (ok : (h.spawn settings room).result = .ok i) :
    (∃ o : Owner, o.identity = i ∧
        (h.spawn settings room).host.roster.entries = h.roster.entries ++ [(i, o)]) ∧
      (∀ w ∈ h.deferred.pending, w.1 ≠ i) ∧
      ∀ k, (h.spawn settings room).host.Later k → ∀ others space, (k.spawn others space).result ≠ .ok i := by
  obtain ⟨o, identity, next, supply, roster⟩ := reachable.regular.spawn_ok ok
  have fresh : ¬ h.supply.Issued i := next ▸ h.supply.not_issued_take
  refine ⟨⟨o, identity, ?_⟩, ?_, ?_⟩
  · have absent : h.roster.get? i = none := by
      cases found : h.roster.get? i with
      | none => rfl
      | some p => exact absurd (reachable.issued (by simp [present, owner?, found])) fresh
    rw [roster, Roster.insert, dif_pos absent]
  · intro w member same
    exact fresh (same ▸ reachable.queued member)
  · intro k later others space again
    obtain ⟨regular, follows⟩ := later.follows (reachable.regular.spawn settings room)
    obtain ⟨_, _, drawn, _⟩ := regular.spawn_ok again
    have issued : (h.spawn settings room).host.supply.Issued i := by
      rw [supply, next]
      exact h.supply.issued_take
    apply k.supply.not_issued_take
    rw [← drawn]
    exact issued.mono follows.later

/-- However many namespaces are asked for, of whatever lifecycles, no identity is handed out twice, also
where there is no room for the namespace; for fewer than can be counted with sixty-four bits, such a count
hands out the same ones. So an owner that is spawned takes nobody's place, whoever is freed is gone for
good, and work that was put off is never done by another owner than the one that asked. -/
theorem identities_never_return {h : Host} (reachable : h.Reachable) :
    (∀ (s : Supply) (creations : List Creation),
        ((s.handedOut creations).map Identity.text).Nodup) ∧
      (∀ creations : List Creation, creations.length < UInt64.size →
        ∃ n, Supply.handedOut {} creations =
          (List.range n).map fun k => .ofNat (1 + UInt64.ofNat k).toNat) ∧
      (∀ settings room i, (h.spawn settings room).result = .ok i →
        (∃ o : Owner, o.identity = i ∧
          (h.spawn settings room).host.roster.entries = h.roster.entries ++ [(i, o)]) ∧
        (∀ w ∈ h.deferred.pending, w.1 ≠ i) ∧
        ∀ k, (h.spawn settings room).host.Later k →
          ∀ others space, (k.spawn others space).result ≠ .ok i) ∧
      (∀ i o, h.owner? i = some o → o.identity = i) ∧
      (∀ i, (h.free i).result = true → ∀ k, (h.free i).host.Later k → k.Gone i) :=
  ⟨Supply.handedOut_texts, Supply.handedOut_words, fun _ _ _ => reachable.spawned_new,
    fun _ _ => reachable.regular.named, fun _ freed _ => reachable.freed_gone freed⟩

theorem freed_owner_gone :
    let first := ((opening {} {} {} []).after (.spawn {} {})).1
    let second := (first.after (.spawn {} {})).1
    let h := (second.after (.send (.ofNat 2) (.ofAtoms "read" []))).1
    let k := ((h.free (.ofNat 2)).host.after (.spawn {} {})).1
    (h.free (.ofNat 2)).result = true ∧ k.owners.map Owner.identity = [.ofNat 1, .ofNat 3] ∧
      k.pending = 1 ∧ k.Gone (.ofNat 2) := by
  intro first second h k
  have reachable : h.Reachable := .after _ (.after _ (.after _ (.opening ..)))
  have freed : (h.free (.ofNat 2)).result = true := by decide +kernel
  have later : (h.free (.ofNat 2)).host.Later k := .after _ .here
  obtain ⟨_, _, _, _, gone⟩ := identities_never_return reachable
  exact ⟨freed, by decide +kernel, by decide +kernel, gone _ freed k later⟩

end Host

end Patchbay
