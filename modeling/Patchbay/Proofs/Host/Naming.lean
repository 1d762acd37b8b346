import Patchbay.Proofs.Host.Handling

/-!
Names and debug flags. They show in the log and where an owner itself is looked at, and nowhere else:
were the owners of a run given other names and other flags, every step would have the same result and
would leave the same host. A host is compared with another after both have forgotten the names and the
flags of their owners. The log is not spoken of.
-/
namespace Patchbay

def OwnerSettings.unnamed (s : OwnerSettings) : OwnerSettings := { file := s.file }

def Owner.unnamed (o : Owner) : Owner := { o with settings := o.settings.unnamed }

def Response.unnamed (r : Response) : Response := { r with owner := r.owner.unnamed, log := [] }

namespace Owner

theorem finish_unnamed (o : Owner) (a : Answer Unit) :
    (o.unnamed.finish a).unnamed = (o.finish a).unnamed := by
  unfold finish
  cases a.outcome <;> rfl

theorem evaluate_unnamed (o : Owner) (source : String) :
    (o.unnamed.evaluate source).unnamed = (o.evaluate source).unnamed := by
  have same : o.unnamed.scripts.evaluate source = o.scripts.evaluate source := rfl
  unfold evaluate
  rw [same]
  dsimp only
  cases (o.scripts.evaluate source).outcome <;> rfl

theorem importModule_unnamed (o : Owner) (s : Surroundings) (name : String) :
    (o.unnamed.importModule s name).unnamed = (o.importModule s name).unnamed := by
  have same : o.unnamed.scripts.importModule s.modules name = o.scripts.importModule s.modules name := rfl
  have finishes := o.finish_unnamed (o.scripts.importModule s.modules name)
  unfold importModule
  rw [same]
  dsimp only
  split
  · exact finishes
  · exact finishes

theorem read_unnamed (o : Owner) (s : Surroundings) (name : Option String) :
    (∃ d, o.read s name = .error d ∧ o.unnamed.read s name = .error d) ∨
      ∃ r log, o.read s name = .ok r ∧ o.unnamed.read s name = .ok ⟨r.owner.unnamed, r.path, log⟩ := by
  have same : o.unnamed.sought name = o.sought name := rfl
  rw [read_eq, read_eq, same]
  cases o.sought name with
  | none => exact .inl ⟨_, rfl, rfl⟩
  | some name =>
    dsimp only
    cases Files.locate s.files s.roots name with
    | error e => exact .inl ⟨_, rfl, rfl⟩
    | ok path =>
      dsimp only
      cases Files.readText s.files path with
      | error e => exact .inl ⟨_, rfl, rfl⟩
      | ok text => exact .inr ⟨_, _, rfl, rfl⟩

theorem runTask_unnamed (o : Owner) (s : Surroundings) (task : DeferredTask) :
    (o.unnamed.runTask s task).unnamed = (o.runTask s task).unnamed := by
  cases task with
  | read name =>
    obtain ⟨d, mine, yours⟩ | ⟨r, log, mine, yours⟩ := o.read_unnamed s name
    · simp only [runTask, mine, yours]
      rfl
    · simp only [runTask, mine, yours]
      rfl
  | load name =>
    obtain ⟨d, mine, yours⟩ | ⟨r, log, mine, yours⟩ := o.read_unnamed s (some name)
    · simp only [runTask, mine, yours]
      rfl
    · simp only [runTask, mine, yours]
      exact r.owner.finish_unnamed (r.owner.scripts.executeFile s.files r.path)

theorem meet_unnamed (o : Owner) (s : Surroundings) (d : Demand) :
    (o.unnamed.meet s d).unnamed = (o.meet s d).unnamed := by
  cases d with
  | bang | count | defer => rfl
  | run r =>
    cases r with
    | evaluate source => exact o.evaluate_unnamed source
    | execute source => exact o.finish_unnamed (o.scripts.execute source)
    | executeFile path => exact o.finish_unnamed (o.scripts.executeFile s.files path)
    | importModule name => exact o.importModule_unnamed s name

theorem handle_unnamed (o : Owner) (s : Surroundings) (m : Message) :
    (o.unnamed.handle s m).unnamed = (o.handle s m).unnamed := by
  cases asked : m.demand? with
  | none =>
    rw [handle_refused asked, handle_refused asked]
    rfl
  | some d =>
    rw [handle_understood asked, handle_understood asked]
    exact o.meet_unnamed s d

theorem saveEditor_unnamed (o : Owner) (text : Text.Utf8.Bytes) :
    (o.unnamed.saveEditor text).unnamed = (o.saveEditor text).unnamed := by
  have same : o.unnamed.closeEditor text = (o.closeEditor text).unnamed := rfl
  unfold saveEditor
  rw [same]
  generalize o.closeEditor text = o
  have ran : o.unnamed.scripts.executeBuffer (o.unnamed.settings.file.getD "") o.unnamed.code.toSource =
    o.scripts.executeBuffer (o.settings.file.getD "") o.code.toSource := rfl
  dsimp only
  rw [ran]
  cases (o.scripts.executeBuffer (o.settings.file.getD "") o.code.toSource).outcome <;> rfl

end Owner

namespace Roster

variable {α β : Type} (f : α → β)

def map (r : Roster α) : Roster β :=
  ⟨r.entries.map fun e => (e.1, f e.2), by rw [List.map_map]; exact r.distinct⟩

theorem get?_map (r : Roster α) (i : Identity) : (r.map f).get? i = (r.get? i).map f := by
  obtain ⟨entries, distinct⟩ := r
  simp only [get?, map]
  clear distinct
  induction entries with
  | nil => rfl
  | cons e rest ih =>
    rw [List.map_cons, List.lookup_cons, List.lookup_cons, ih]
    cases i == e.1 <;> rfl

theorem map_replace (r : Roster α) (i : Identity) (a : α) :
    (r.replace i a).map f = (r.map f).replace i (f a) := by
  simp only [replace, map, List.map_map, mk.injEq]
  apply List.map_congr_left
  intro e _
  simp only [Function.comp_apply]
  split <;> rfl

theorem map_insert (r : Roster α) (i : Identity) (a : α) :
    (r.insert i a).map f = (r.map f).insert i (f a) := by
  unfold insert
  by_cases absent : r.get? i = none
  · have absent' : (r.map f).get? i = none := by rw [get?_map, absent, Option.map_none]
    rw [dif_pos absent, dif_pos absent']
    simp [map]
  · have present : ¬ (r.map f).get? i = none := by rwa [get?_map, Option.map_eq_none_iff]
    rw [dif_neg absent, dif_neg present]
    exact map_replace f r i a

theorem map_erase (r : Roster α) (i : Identity) : (r.erase i).map f = (r.map f).erase i := by
  simp only [erase, map, List.filter_map, Function.comp_def]

end Roster

namespace Host

def unnamed (h : Host) : Host := { h with roster := h.roster.map Owner.unnamed }

def Report.unnamed {α : Type} (r : Report α) : Report α := { r with host := r.host.unnamed, log := [] }

def Step.unnamed : Step → Step
  | .spawn settings room => .spawn settings.unnamed room
  | s => s

def Moment.unnamed (m : Moment) : Moment := { m with host := m.host.unnamed }

theorem unnamed_unnamed (h : Host) : h.unnamed.unnamed = h.unnamed := by
  have forgotten (o : Owner) : o.unnamed.unnamed = o.unnamed := rfl
  simp [unnamed, Roster.map, forgotten]

theorem owner?_unnamed (h : Host) (i : Identity) :
    h.unnamed.owner? i = (h.owner? i).map Owner.unnamed := h.roster.get?_map Owner.unnamed i

theorem update_unnamed (h : Host) (i : Identity) {o p : Owner} (same : o.unnamed = p.unnamed) :
    (h.unnamed.update i o).unnamed = (h.update i p).unnamed := by
  have twice := congrArg Host.roster h.unnamed_unnamed
  simp only [unnamed] at twice
  simp only [update, unnamed, Roster.map_replace, twice, same]

theorem absorb_unnamed (h : Host) (i : Identity) {r p : Response} (same : r.unnamed = p.unnamed) :
    (h.unnamed.absorb i r).unnamed = (h.absorb i p).unnamed := by
  obtain ⟨owner, events, tasks, _⟩ := (Response.mk.injEq ..).mp same
  have identity : r.owner.identity = p.owner.identity := by
    change r.owner.unnamed.identity = p.owner.unnamed.identity
    rw [owner]
  have host := h.update_unnamed i owner
  simp only [unnamed, Host.mk.injEq] at host
  simp only [absorb, Report.unnamed, unnamed, host, events, tasks, identity]

theorem make_unnamed (l : Lifecycle) (s : Supply) (settings : OwnerSettings) (room : Room) :
    (Owner.make l s settings.unnamed room).result =
        (Owner.make l s settings room).result.map Owner.unnamed ∧
      (Owner.make l s settings.unnamed room).lifecycle = (Owner.make l s settings room).lifecycle ∧
      (Owner.make l s settings.unnamed room).supply = (Owner.make l s settings room).supply := by
  unfold Owner.make
  split
  · exact ⟨rfl, rfl, rfl⟩
  · split <;> exact ⟨rfl, rfl, rfl⟩

theorem enroll_unnamed (h : Host) (o : Owner) :
    (h.unnamed.enroll o.unnamed).1.unnamed = (h.enroll o).1.unnamed := by
  have twice := congrArg Host.roster h.unnamed_unnamed
  simp only [unnamed] at twice
  have inserted : ((h.roster.map Owner.unnamed).insert o.identity o.unnamed).map Owner.unnamed =
      (h.roster.insert o.identity o).map Owner.unnamed := by
    rw [Roster.map_insert, twice, Roster.map_insert]
    rfl
  have identity : o.unnamed.identity = o.identity := rfl
  have former := h.owner?_unnamed o.identity
  unfold enroll
  rw [identity, former]
  cases h.owner? o.identity with
  | none => simp only [unnamed, Option.map, inserted]
  | some p =>
    simp only [unnamed, Option.map, inserted]
    rfl

theorem spawn_unnamed (h : Host) (settings : OwnerSettings) (room : Room) :
    (h.unnamed.spawn settings.unnamed room).unnamed = (h.spawn settings room).unnamed := by
  obtain ⟨result, lifecycle, supply⟩ := make_unnamed h.lifecycle h.supply settings room
  have same : h.unnamed.lifecycle = h.lifecycle ∧ h.unnamed.supply = h.supply := ⟨rfl, rfl⟩
  have twice := congrArg Host.roster h.unnamed_unnamed
  unfold spawn
  rw [same.1, same.2]
  dsimp only
  rw [result, lifecycle, supply]
  cases (Owner.make h.lifecycle h.supply settings room).result with
  | error e => simp only [Except.map, Report.unnamed, unnamed] at twice ⊢; rw [twice]
  | ok o =>
    have enrolled := enroll_unnamed { h with
      lifecycle := (Owner.make h.lifecycle h.supply settings room).lifecycle
      supply := (Owner.make h.lifecycle h.supply settings room).supply } o
    simp only [Except.map, Report.unnamed]
    simp only [unnamed] at enrolled ⊢
    rw [enrolled]
    rfl

theorem free_unnamed (h : Host) (i : Identity) :
    (h.unnamed.free i).unnamed = (h.free i).unnamed := by
  have twice := congrArg Host.roster h.unnamed_unnamed
  simp only [unnamed] at twice
  unfold free
  rw [owner?_unnamed]
  cases h.owner? i with
  | none => simp only [Option.map, Report.unnamed, unnamed_unnamed]
  | some o =>
    simp only [Option.map, Report.unnamed, unnamed, Roster.map_erase, twice]
    rfl

def Report.map {α β : Type} (f : α → β) (r : Report α) : Report β := ⟨f r.result, r.host, r.events, r.log⟩

theorem send_unnamed (h : Host) (i : Identity) (m : Message) :
    (h.unnamed.send i m).unnamed = (h.send i m).unnamed := by
  unfold send
  rw [owner?_unnamed]
  cases h.owner? i with
  | none => simp only [Option.map, Report.unnamed, unnamed_unnamed]
  | some o =>
    have absorbed := h.absorb_unnamed i (o.handle_unnamed h.surroundings m)
    exact congrArg (Report.map fun _ => true) absorbed

theorem sendLine_unnamed (h : Host) (i : Identity) (line : String) :
    (h.unnamed.sendLine i line).unnamed = (h.sendLine i line).unnamed := by
  unfold sendLine
  cases Message.parse line with
  | error e => simp only [Report.unnamed, unnamed_unnamed]
  | ok m => exact congrArg (Report.map Except.ok) (h.send_unnamed i m)

theorem editorClosed_unnamed (h : Host) (i : Identity) (text : Text.Utf8.Bytes) :
    (h.unnamed.editorClosed i text).unnamed = (h.editorClosed i text).unnamed := by
  unfold editorClosed
  rw [owner?_unnamed]
  cases h.owner? i with
  | none => simp only [Option.map, Report.unnamed, unnamed_unnamed]
  | some o =>
    have closed : (o.unnamed.closeEditor text).unnamed = (o.closeEditor text).unnamed := rfl
    simp only [Option.map, Report.unnamed, h.update_unnamed i closed]

theorem editorSaved_unnamed (h : Host) (i : Identity) (text : Text.Utf8.Bytes) :
    (h.unnamed.editorSaved i text).unnamed = (h.editorSaved i text).unnamed := by
  unfold editorSaved
  rw [owner?_unnamed]
  cases h.owner? i with
  | none => simp only [Option.map, Report.unnamed, unnamed_unnamed]
  | some o =>
    have absorbed := h.absorb_unnamed i (o.saveEditor_unnamed text)
    exact congrArg (Report.map fun _ => true) absorbed

theorem runDeferred_unnamed (h : Host) (i : Identity) (task : DeferredTask) :
    (h.unnamed.runDeferred i task).unnamed = (h.runDeferred i task).unnamed := by
  unfold runDeferred
  rw [owner?_unnamed]
  cases h.owner? i with
  | none => simp only [Option.map, Report.unnamed, unnamed_unnamed]
  | some o =>
    have absorbed := h.absorb_unnamed i (o.runTask_unnamed h.surroundings task)
    exact congrArg (Report.map fun _ => 1) absorbed

theorem runAll_alike {h k : Host} (alike : h.unnamed = k.unnamed)
    (work : List (Identity × DeferredTask)) : (h.runAll work).unnamed = (k.runAll work).unnamed := by
  induction work generalizing h k with
  | nil => simp only [runAll, Report.unnamed, alike]
  | cons w rest ih =>
    obtain ⟨i, task⟩ := w
    have first : (h.runDeferred i task).unnamed = (k.runDeferred i task).unnamed := by
      rw [← runDeferred_unnamed, alike, runDeferred_unnamed]
    have others := ih (congrArg Report.host first)
    simp only [Report.unnamed, Report.mk.injEq] at first others
    simp only [runAll, Report.unnamed, first, others]

theorem turn_unnamed (h : Host) : h.unnamed.turn.unnamed = h.turn.unnamed := by
  have emptied := congrArg (fun k : Host => { k with deferred := {} }) h.unnamed_unnamed
  exact runAll_alike (h := { h.unnamed with deferred := {} }) (k := { h with deferred := {} }) emptied
    h.deferred.pending

theorem register_unnamed (h : Host) (m : BuiltinModule) :
    (h.unnamed.register m).unnamed = (h.register m).unnamed := by
  have same : h.unnamed.lifecycle = h.lifecycle := rfl
  have twice := congrArg Host.roster h.unnamed_unnamed
  simp only [unnamed] at twice
  unfold register
  rw [same]
  cases h.lifecycle.register m with
  | ok l => simp only [Report.unnamed, unnamed, twice]
  | error e => simp only [Report.unnamed, unnamed_unnamed]

def Report.moment {α : Type} (tell : α → Told) (r : Report α) : Moment :=
  ⟨tell r.result, r.events, r.host⟩

theorem moment_alike {α : Type} (tell : α → Told) {r p : Report α} (same : r.unnamed = p.unnamed) :
    (r.moment tell).unnamed = (p.moment tell).unnamed :=
  congrArg (Report.moment tell) same

/-- A step goes the same way on a host that has forgotten names and flags. -/
theorem moment_unnamed (h : Host) (s : Step) :
    (h.unnamed.moment s.unnamed).unnamed = (h.moment s).unnamed := by
  cases s with
  | spawn settings room => exact moment_alike .spawned (h.spawn_unnamed settings room)
  | free i => exact moment_alike .done (h.free_unnamed i)
  | send i m => exact moment_alike .done (h.send_unnamed i m)
  | sendLine i line => exact moment_alike .read (h.sendLine_unnamed i line)
  | editorClosed i text => exact moment_alike .done (h.editorClosed_unnamed i text)
  | editorSaved i text => exact moment_alike .done (h.editorSaved_unnamed i text)
  | turn => exact moment_alike .ran h.turn_unnamed
  | register m => exact moment_alike .registered (h.register_unnamed m)
  | changeFiles f =>
    exact congrArg (fun k : Host => (⟨.nothing, [], k.changeFiles f⟩ : Moment)) h.unnamed_unnamed
  | skipIdentities n =>
    exact congrArg (fun k : Host => (⟨.nothing, [], { k with supply := k.supply.skip n }⟩ : Moment))
      h.unnamed_unnamed

theorem moments_alike {h k : Host} (alike : h.unnamed = k.unnamed) {s t : Step}
    (same : s.unnamed = t.unnamed) : (h.moment s).unnamed = (k.moment t).unnamed := by
  rw [← moment_unnamed, alike, same, moment_unnamed]

theorem trace_alike {h k : Host} (alike : h.unnamed = k.unnamed) {steps others : List Step}
    (same : steps.map Step.unnamed = others.map Step.unnamed) :
    (h.trace steps).map Moment.unnamed = (k.trace others).map Moment.unnamed := by
  induction steps generalizing h k others with
  | nil =>
    obtain rfl : others = [] := by simpa using same.symm
    rfl
  | cons s rest ih =>
    obtain ⟨t, more, rfl, first, later⟩ := List.map_eq_cons_iff.mp same.symm
    have now := moments_alike alike first.symm
    have after : (h.after s).1.unnamed = (k.after t).1.unnamed := congrArg Moment.host now
    rw [trace, trace, List.map_cons, List.map_cons, now, ih after later.symm]

/-- Names and debug flags have no influence: when two runs are the same but for the names and the flags
of the owners that are made in them, then at every point the last step has had the same result, identities
included, the same was sent back in it in the same order, and the hosts are the same but for these names
and flags: lifecycle, identities still to come, work that waits, and of every owner the remembered file,
the text and all that its scripts have made. -/
theorem naming_never_shows (settings : InterpreterSettings) (supply : Supply) (files : Files.Tree)
    (roots : List String) {steps others : List Step}
    (same : steps.map Step.unnamed = others.map Step.unnamed) :
    let start := opening settings supply files roots
    (start.trace steps).map Moment.unnamed = (start.trace others).map Moment.unnamed :=
  trace_alike rfl same

/-- An owner with a name that logs nothing does as one with neither name nor flag. -/
theorem named_owner_alike :
    let i := Identity.ofNat 1
    let start := opening {} {} { entries := [(["a.js"], .file (Text.Utf8.ofString "x = 1"))] } []
    let named : List Step := [.spawn { name := some "synth", debug := false, file := some "a.js" } {},
      .sendLine i "read", .turn, .sendLine i "frobnicate"]
    let plain : List Step := [.spawn { file := some "a.js" } {},
      .sendLine i "read", .turn, .sendLine i "frobnicate"]
    named.map Step.unnamed = plain.map Step.unnamed ∧
      (start.trace named).map Moment.unnamed = (start.trace plain).map Moment.unnamed ∧
      (start.run named).1.owners.map Owner.label = ["synth"] ∧
      (start.run plain).1.owners.map Owner.label = ["u000001"] := by
  intro i start named plain
  exact ⟨rfl, naming_never_shows {} {} _ [] rfl, by decide +kernel, by decide +kernel⟩

end Host

end Patchbay
