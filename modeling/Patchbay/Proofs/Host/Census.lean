import Patchbay.Proofs.Host.Run

/-!
The books of a host: the references taken on the interpreter, the namespaces and the owners in the
roster are as many, whatever happens and in whatever order. It takes that the lifecycle is the host's
own; a stray release from outside would break it.
-/
namespace Patchbay.Host

/-- The books agree, owners stand under their own identities, and no identity that the host knows of
is still to be handed out. -/
structure Sound (h : Host) : Prop where
  coherent : h.lifecycle.Coherent
  referenced : h.lifecycle.active = h.roster.length
  housed : h.lifecycle.live = h.roster.length
  known : ∀ {i o}, h.owner? i = some o → o.identity = i ∧ h.supply.Issued i
  queued : ∀ {w}, w ∈ h.deferred.pending → h.supply.Issued w.1

theorem sound_opening (settings : InterpreterSettings) (supply : Supply) (files : Files.Tree)
    (roots : List String) : (opening settings supply files roots).Sound := by
  refine ⟨Lifecycle.coherent_ofSettings settings, rfl, rfl, ?_, ?_⟩
  · intro i o found
    cases found
  · intro w member
    cases member

namespace Sound

variable {h : Host}

theorem named (sound : h.Sound) {i : Identity} {o : Owner} (found : h.owner? i = some o) :
    o.identity = i := (sound.known found).1

theorem issued (sound : h.Sound) {i : Identity} {o : Owner} (found : h.owner? i = some o) :
    h.supply.Issued i := (sound.known found).2

theorem settle {l : Lifecycle} {s : Supply} (sound : h.Sound) (coherent : l.Coherent)
    (active : l.active = h.lifecycle.active) (live : l.live = h.lifecycle.live)
    (later : h.supply.next ≤ s.next) : Sound { h with lifecycle := l, supply := s } :=
  ⟨coherent, active.trans sound.referenced, live.trans sound.housed,
    fun found => ⟨sound.named found, (sound.issued found).mono later⟩,
    fun member => (sound.queued member).mono later⟩

theorem absorb (sound : h.Sound) {i : Identity} {o : Owner} {r : Response}
    (found : h.owner? i = some o) (responds : o.Responds r) : (h.absorb i r).host.Sound := by
  have identity : r.owner.identity = i := responds.identity.trans (sound.named found)
  refine ⟨sound.coherent, ?_, ?_, ?_, ?_⟩
  · exact sound.referenced.trans (h.roster.length_replace i r.owner).symm
  · exact sound.housed.trans (h.roster.length_replace i r.owner).symm
  · intro j p present
    rw [owner?_absorb] at present
    split at present
    · rename_i same
      obtain ⟨_, former, rfl⟩ := Option.map_eq_some_iff.mp present
      exact ⟨identity.trans same.symm, sound.issued former⟩
    · exact sound.known present
  · intro w member
    rw [pending_absorb, List.mem_append] at member
    rcases member with earlier | fresh
    · exact sound.queued earlier
    · obtain ⟨_, _, rfl⟩ := List.mem_map.mp fresh
      rw [identity]
      exact sound.issued found

theorem deliver (sound : h.Sound) {i : Identity} {f : Owner → Option Response}
    (responds : ∀ o r, f o = some r → o.Responds r) : (h.deliver i f).1.Sound :=
  deliver_keeps sound fun o r found done => sound.absorb found (responds o r done)

theorem fresh (sound : h.Sound) : h.owner? h.supply.take.1 = none := by
  cases found : h.owner? h.supply.take.1 with
  | none => rfl
  | some o => exact absurd (sound.issued found) h.supply.not_issued_take

theorem enroll (sound : h.Sound) {l : Lifecycle} {o : Owner} (coherent : l.Coherent)
    (active : l.active = h.lifecycle.active + 1) (live : l.live = h.lifecycle.live + 1)
    (identity : o.identity = h.supply.take.1) :
    Sound { h with lifecycle := l, supply := h.supply.take.2, roster := h.roster.insert o.identity o } := by
  have absent : h.roster.get? o.identity = none := identity ▸ sound.fresh
  have later : h.supply.next ≤ h.supply.take.2.next := Nat.le_succ _
  refine ⟨coherent, ?_, ?_, ?_, fun member => (sound.queued member).mono later⟩
  · rw [active, sound.referenced, Roster.length_insert absent]
  · rw [live, sound.housed, Roster.length_insert absent]
  · intro j p present
    rw [owner?, Roster.get?_insert] at present
    split at present
    · rename_i same
      cases present
      refine ⟨same.symm, ?_⟩
      rw [same, identity]
      exact h.supply.issued_take
    · exact ⟨sound.named present, (sound.issued present).mono later⟩

/-- Either nobody comes, and only an identity may be used up, or an owner comes with a reference, a
namespace and the next identity. -/
theorem spawn_cases (sound : h.Sound) (settings : OwnerSettings) (room : Room) :
    (∃ e l s, (h.spawn settings room).result = .error e ∧
      (h.spawn settings room).host = { h with lifecycle := l, supply := s } ∧
      l.Coherent ∧ l.active = h.lifecycle.active ∧ l.live = h.lifecycle.live ∧
      h.supply.next ≤ s.next) ∨
    (∃ o l, (h.spawn settings room).result = .ok o.identity ∧
      (h.spawn settings room).host =
        { h with lifecycle := l, supply := h.supply.take.2, roster := h.roster.insert o.identity o } ∧
      l.Coherent ∧ l.active = h.lifecycle.active + 1 ∧ l.live = h.lifecycle.live + 1 ∧
      o.identity = h.supply.take.1) := by
  unfold Host.spawn
  dsimp only
  split
  · rename_i e failed
    exact .inl ⟨e, _, _, rfl, rfl, Owner.make_error sound.coherent failed⟩
  · rename_i o made
    obtain ⟨coherent, active, live, supply, identity⟩ := Owner.make_ok sound.coherent made
    have absent : h.roster.get? o.identity = none := identity ▸ sound.fresh
    refine .inr ⟨o, _, rfl, ?_, coherent, active, live, identity⟩
    rw [supply]
    simp only [Host.enroll, Host.owner?, absent]

theorem spawn (sound : h.Sound) (settings : OwnerSettings) (room : Room) :
    (h.spawn settings room).host.Sound := by
  obtain ⟨e, l, s, _, host, coherent, active, live, later⟩ |
    ⟨o, l, _, host, coherent, active, live, identity⟩ := sound.spawn_cases settings room
  · rw [host]
    exact sound.settle coherent active live later
  · rw [host]
    exact sound.enroll coherent active live identity

theorem spawn_result (sound : h.Sound) {settings : OwnerSettings} {room : Room} {i : Identity}
    (ok : (h.spawn settings room).result = .ok i) : ¬ h.supply.Issued i := by
  obtain ⟨e, l, s, result, _⟩ | ⟨o, l, result, _, _, _, _, identity⟩ := sound.spawn_cases settings room
  · rw [result] at ok
    cases ok
  · rw [result] at ok
    cases ok
    rw [identity]
    exact h.supply.not_issued_take

theorem supply_spawn (sound : h.Sound) (settings : OwnerSettings) (room : Room) :
    h.supply.next ≤ (h.spawn settings room).host.supply.next := by
  obtain ⟨e, l, s, _, host, _, _, _, later⟩ | ⟨o, l, _, host, _⟩ := sound.spawn_cases settings room
  · rw [host]
    exact later
  · rw [host]
    exact Nat.le_succ _

theorem present_spawn (sound : h.Sound) (settings : OwnerSettings) (room : Room) {j : Identity}
    (issued : h.supply.Issued j) : (h.spawn settings room).host.present j = h.present j := by
  obtain ⟨e, l, s, _, host, _⟩ | ⟨o, l, _, host, _, _, _, identity⟩ := sound.spawn_cases settings room
  · rw [host]
    rfl
  · have other : j ≠ o.identity := by
      rintro rfl
      exact h.supply.not_issued_take (identity ▸ issued)
    rw [host]
    simp only [present, owner?, Roster.get?_insert, if_neg other]

theorem free (sound : h.Sound) (i : Identity) : (h.free i).host.Sound := by
  unfold Host.free
  split
  · exact sound
  · rename_i o found
    have fewer := Roster.length_erase found
    refine ⟨(sound.coherent.dropped o.scripts).released, ?_, ?_, ?_, sound.queued⟩
    · simp only [dismiss, Lifecycle.release_active, Lifecycle.dropNamespace_active, sound.referenced]
      omega
    · simp only [dismiss, Lifecycle.release_live, Lifecycle.dropNamespace_live, sound.housed]
      omega
    · intro j p present
      rw [owner?, Roster.get?_erase] at present
      split at present
      · cases present
      · exact sound.known present

theorem runAll (sound : h.Sound) (work : List (Identity × DeferredTask)) : (h.runAll work).host.Sound :=
  runAll_keeps (fun _ _ sound => sound.deliver fun _ _ does => task_responds does) sound work

theorem emptied (sound : h.Sound) : Sound { h with deferred := {} } :=
  ⟨sound.coherent, sound.referenced, sound.housed, sound.known, by simp⟩

theorem turn (sound : h.Sound) : h.turn.host.Sound :=
  sound.emptied.runAll h.deferred.pending

/-- Whatever happens to a host, its books still agree. -/
theorem after (sound : h.Sound) (s : Step) : (h.after s).1.Sound := by
  have moved := h.moves s
  generalize (h.after s).1 = k at moved ⊢
  cases moved with
  | spawns settings room => exact sound.spawn settings room
  | frees i => exact sound.free i
  | delivers => exact sound.deliver fun o r done => response_responds done
  | serves work => exact sound.emptied.runAll work
  | registers alike =>
    exact sound.settle (sound.coherent.alike alike) alike.active alike.live (Nat.le_refl _)
  | files => exact ⟨sound.coherent, sound.referenced, sound.housed, sound.known, sound.queued⟩
  | skips => exact sound.settle sound.coherent rfl rfl (Nat.le_add_right _ _)

theorem run (sound : h.Sound) (steps : List Step) : (h.run steps).1.Sound := by
  induction steps generalizing h with
  | nil => exact sound
  | cons s rest ih => exact ih (sound.after s)

theorem ready_iff (sound : h.Sound) : h.lifecycle.state = .ready ↔ 0 < h.roster.length := by
  rw [sound.coherent.ready, sound.referenced]

theorem finalized (sound : h.Sound) (ended : h.lifecycle.state = .finalized) : h.lifecycle.live = 0 := by
  have idle := (sound.coherent.idle (by simp [ended])).1
  rw [sound.housed, ← sound.referenced, idle]

theorem count (sound : h.Sound) {i : Identity} {o : Owner} {m : Message} (found : h.owner? i = some o)
    (selector : m.selector = "count") (bare : m.args = []) :
    (h.send i m).events =
      [.emitted i .reply (.value (.scalar (.int (Int64.ofNat h.roster.length))))] := by
  have events := o.handle_count h.surroundings selector bare
  rw [Owner.emit, sound.named found, show h.surroundings.active = h.roster.length from sound.referenced]
    at events
  rw [← events]
  simp only [send, found, Host.absorb]

/-- An owner that is freed leaves its namespace while the interpreter still runs on its reference. -/
theorem free_order (sound : h.Sound) {i : Identity} {o : Owner} (found : h.owner? i = some o) :
    ∃ l : Lifecycle, l.state = .ready ∧ l.active = h.roster.length ∧ l.live + 1 = h.roster.length ∧
      (h.free i).host.lifecycle = l.release.1 := by
  have fewer := Roster.length_erase found
  refine ⟨(h.lifecycle.dropNamespace o.scripts).1, ?_, sound.referenced, ?_, ?_⟩
  · exact sound.ready_iff.mpr (by omega)
  · rw [Lifecycle.dropNamespace_live, sound.housed]
    omega
  · simp only [Host.free, found, dismiss]

end Sound

/-- In every state that a host can come to, references, namespaces and owners are as many, and the
interpreter runs exactly while there is an owner. All owners stand under their own identities and are
told that number when they ask. No namespace is left once the interpreter has ended, since an owner
that goes gives up its namespace before its reference. -/
theorem census_of_run (settings : InterpreterSettings) (supply : Supply) (files : Files.Tree)
    (roots : List String) (steps : List Step) :
    let h := ((opening settings supply files roots).run steps).1
    h.lifecycle.active = h.roster.length ∧
      h.lifecycle.live = h.roster.length ∧
      (h.lifecycle.state = .ready ↔ h.roster.entries ≠ []) ∧
      (∀ i o, (i, o) ∈ h.roster.entries → o.identity = i) ∧
      (∀ i o m, (i, o) ∈ h.roster.entries → m.selector = "count" → m.args = [] →
        (h.send i m).events =
          [.emitted i .reply (.value (.scalar (.int (Int64.ofNat h.roster.length))))]) ∧
      (h.lifecycle.state = .finalized → h.lifecycle.live = 0) ∧
      (∀ i o, (i, o) ∈ h.roster.entries →
        ∃ l : Lifecycle, l.state = .ready ∧ l.active = h.roster.length ∧
          l.live + 1 = h.roster.length ∧ (h.free i).host.lifecycle = l.release.1) := by
  intro h
  have sound : h.Sound := (sound_opening settings supply files roots).run steps
  refine ⟨sound.referenced, sound.housed, ?_, ?_, ?_, sound.finalized, ?_⟩
  · rw [sound.ready_iff, Roster.length, List.length_pos_iff]
  · intro i o member
    exact sound.named (Roster.get?_eq_some.mpr member)
  · intro i o m member selector bare
    exact sound.count (Roster.get?_eq_some.mpr member) selector bare
  · intro i o member
    exact sound.free_order (Roster.get?_eq_some.mpr member)

end Patchbay.Host
