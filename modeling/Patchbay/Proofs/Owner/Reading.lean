import Patchbay.Proofs.Files
import Patchbay.Proofs.Host.Handling

/-!
Tasks that read files. A task that finds its file takes its text and its name, and one that does not
leaves the owner alone; a load then runs the very text that it took. Files are taken to stay as they are
while a task runs.
-/
namespace Patchbay

open Text.Utf8

def DeferredTask.name? : DeferredTask → Option String
  | read name => name
  | load name => some name

namespace Owner

structure Finds (o : Owner) (s : Surroundings) (task : DeferredTask) (name path : String)
    (text : Bytes) : Prop where
  named : o.sought task.name? = some name
  located : Files.locate s.files s.roots name = .ok path
  readable : Files.readText s.files path = .ok text

theorem holding_self {o : Owner} {name : String} {text : Bytes} (file : o.settings.file = some name)
    (bytes : o.code.bytes = text) : o.holding name text = o := by
  obtain ⟨⟨label, debug, _⟩, ⟨_⟩, scripts⟩ := o
  cases file
  cases bytes
  rfl

variable {o : Owner} {s : Surroundings} {task : DeferredTask} {name path : String} {text : Bytes}

theorem Finds.read (finds : o.Finds s task name path text) :
    ∃ log, o.read s task.name? = .ok ⟨o.holding name text, path, log⟩ := by
  rw [read_eq, finds.named]
  dsimp only
  rw [finds.located]
  dsimp only
  rw [finds.readable]
  exact ⟨_, rfl⟩

theorem read_lost (lost : ∀ name path text, ¬ o.Finds s task name path text) :
    ∃ d, o.read s task.name? = .error d := by
  rw [read_eq]
  split
  · exact ⟨_, rfl⟩
  · rename_i name named
    split
    · exact ⟨_, rfl⟩
    · rename_i path located
      split
      · exact ⟨_, rfl⟩
      · rename_i text readable
        exact absurd ⟨named, located, readable⟩ (lost name path text)

theorem runTask_lost (lost : ∀ name path text, ¬ o.Finds s task name path text) :
    ∃ d, o.runTask s task = o.report d := by
  obtain ⟨d, failed⟩ := read_lost lost
  refine ⟨d, ?_⟩
  cases task with
  | read asked =>
    have failed : o.read s asked = .error d := failed
    simp only [runTask, failed]
  | load asked =>
    have failed : o.read s (some asked) = .error d := failed
    simp only [runTask, failed]

theorem runTask_read {asked : Option String} (finds : o.Finds s (.read asked) name path text) :
    (o.runTask s (.read asked)).owner = o.holding name text ∧
      (o.runTask s (.read asked)).events = [] := by
  obtain ⟨log, ok⟩ := finds.read
  have read : o.read s asked = _ := ok
  simp only [runTask, read, and_self]

theorem finish_holding (o : Owner) (name : String) (text : Bytes) (a : Answer Unit) :
    ((o.holding name text).finish a).owner = (o.follow a).holding name text ∧
      ((o.holding name text).finish a).events = (o.finish a).events := by
  unfold finish
  cases a.outcome <;> exact ⟨rfl, rfl⟩

theorem runTask_load {asked : String} (finds : o.Finds s (.load asked) name path text) :
    (o.runTask s (.load asked)).owner =
        (o.follow (o.scripts.executeFile s.files path)).holding name text ∧
      (o.runTask s (.load asked)).events = (o.finish (o.scripts.executeFile s.files path)).events := by
  obtain ⟨log, ok⟩ := finds.read
  have read : o.read s (some asked) = _ := ok
  simp only [runTask, read]
  exact finish_holding o name text (o.scripts.executeFile s.files path)

theorem owner_finish (o : Owner) (a : Answer Unit) : (o.finish a).owner = o.follow a := by
  unfold finish
  split <;> rfl

theorem Finds.taken (finds : o.Finds s task name path text) :
    (o.runTask s task).owner.settings = { o.settings with file := some name } ∧
      (o.runTask s task).owner.code.bytes = text := by
  cases task with
  | read asked =>
    rw [(runTask_read finds).1]
    exact ⟨rfl, rfl⟩
  | load asked =>
    rw [(runTask_load finds).1]
    exact ⟨rfl, rfl⟩

theorem finish_reported {a : Answer Unit} {d : Diagnostic} (reported : .reported d ∈ (o.finish a).events) :
    a.outcome = .error d ∧ (o.finish a).events = [.reported d] := by
  unfold finish at reported ⊢
  split at reported
  · cases List.mem_singleton.mp reported
  · rename_i e failed
    cases List.mem_singleton.mp reported
    exact ⟨failed, rfl⟩

/-- A task that is reported although it found its file is a load whose file did not run. -/
theorem Finds.reported (finds : o.Finds s task name path text) {d : Diagnostic}
    (reported : .reported d ∈ (o.runTask s task).events) :
    (∃ asked, task = .load asked) ∧ (o.scripts.executeFile s.files path).outcome = .error d ∧
      (o.runTask s task).events = [.reported d] := by
  cases task with
  | read asked =>
    rw [(runTask_read finds).2] at reported
    cases reported
  | load asked =>
    rw [(runTask_load finds).2] at reported ⊢
    obtain ⟨failed, events⟩ := finish_reported reported
    exact ⟨⟨asked, rfl⟩, failed, events⟩

/-- A task that is reported sends nothing else back. If its file was not found or could not be read, the
owner is as it was. What is left is a load whose file did not run: it has taken the file as a read does,
and no other setting is changed. -/
theorem reported_task_keeps {d : Diagnostic} (reported : .reported d ∈ (o.runTask s task).events) :
    (o.runTask s task).events = [.reported d] ∧
      ((∀ name path text, ¬ o.Finds s task name path text) → (o.runTask s task).owner = o) ∧
      (∀ name path text, o.Finds s task name path text →
        (∃ asked, task = .load asked) ∧
        (o.scripts.executeFile s.files path).outcome = .error d ∧
        (o.runTask s task).owner.settings = { o.settings with file := some name } ∧
        (o.runTask s task).owner.code.bytes = text) := by
  refine ⟨?_, ?_, ?_⟩
  · by_cases found : ∃ name path text, o.Finds s task name path text
    · obtain ⟨name, path, text, finds⟩ := found
      exact (finds.reported reported).2.2
    · obtain ⟨e, lost⟩ := runTask_lost fun name path text finds => found ⟨name, path, text, finds⟩
      rw [lost] at reported ⊢
      cases List.mem_singleton.mp reported
      rfl
  · intro lost
    obtain ⟨e, same⟩ := runTask_lost lost
    rw [same]
    rfl
  · intro name path text finds
    obtain ⟨load, failed, _⟩ := finds.reported reported
    exact ⟨load, failed, finds.taken⟩

theorem missing_file_keeps :
    let i := Identity.ofNat 1
    let o : Owner := { settings := { file := some "kept.js" }, scripts := .fresh i none }
    let r := o.runTask ⟨1, {}, {}, ["lib"]⟩ (.load "lost.js")
    r.events = [.reported (.make i "read" "lost.js" "can't find file lost.js")] ∧ r.owner = o := by
  intro i o r
  have events : r.events = [.reported (.make i "read" "lost.js" "can't find file lost.js")] := by
    decide +kernel
  have keeps := reported_task_keeps (events ▸ List.mem_singleton_self _)
  refine ⟨events, keeps.2.1 ?_⟩
  rintro name path text ⟨named, located, _⟩
  cases named
  cases located

/-- A load of a script that throws forgets the file that was remembered before. -/
theorem failed_load_forgets :
    let i := Identity.ofNat 1
    let o : Owner := { settings := { file := some "kept.js" }, scripts := .fresh i none }
    let files : Files.Tree := { entries := [(["bad.js"], .file (ofString "throw 1"))] }
    let r := o.runTask ⟨1, {}, files, []⟩ (.load "bad.js")
    r.events = [.reported (.make i "execfile" "bad.js" "1")] ∧
      o.settings.file = some "kept.js" ∧ r.owner.settings.file = some "bad.js" ∧
      o.code.bytes = [] ∧ r.owner.code.bytes = ofString "throw 1" := by
  decide +kernel

theorem Finds.executeFile (finds : o.Finds s task name path text) :
    o.scripts.executeFile s.files path = o.scripts.runStatements "execfile" path text := by
  have given : path.isEmpty = false := by
    simpa using Files.locate_ne_empty finds.located
  simp [Namespace.executeFile, given, finds.readable]

theorem handle_executeFile {m : Message} (selector : m.selector = "execfile")
    (args : m.args = [.symbol path]) (o : Owner) (s : Surroundings) :
    (o.handle s m).owner = o.follow (o.scripts.executeFile s.files path) ∧
      (o.handle s m).events = (o.finish (o.scripts.executeFile s.files path)).events := by
  have asked : m.demand? = some (.run (.executeFile path)) := by
    simp [Message.demand?, selector, args]
  rw [handle_understood asked]
  exact ⟨o.owner_finish _, rfl⟩

theorem Finds.again {q : Owner} {t : Surroundings} (finds : o.Finds s task name path text)
    (file : q.settings.file = some name) (files : t.files = s.files) (roots : t.roots = s.roots) :
    q.Finds t (.read none) name path text :=
  ⟨file, by rw [files, roots]; exact finds.located, by rw [files]; exact finds.readable⟩

/-- A load that finds its file does to the namespace, and sends back, just what a message does that asks
to run the file where it was found. What runs is the text that the owner then holds, which is that of the
file with uniform line breaks; the name under which the file was looked for is the one that is remembered.
A task that is not reported has found its file, and from then on, whatever runs meanwhile, a read
without a name finds the same file at the same place and changes nothing, while the files and the text
stay as they are. -/
theorem load_runs_what_it_reads (o : Owner) (s : Surroundings) :
    (∀ asked name path text, o.Finds s (.load asked) name path text →
      ∀ m : Message, m.selector = "execfile" → m.args = [.symbol path] →
        let r := o.runTask s (.load asked)
        let ran := o.scripts.runStatements "execfile" path r.owner.code.bytes
        r.events = (o.handle s m).events ∧ r.owner.scripts = (o.handle s m).owner.scripts ∧
          r.events = (o.finish ran).events ∧ r.owner.scripts = ran.after ∧
          (∃ content, s.files.read path = .ok content ∧ Files.Uniform content r.owner.code.bytes) ∧
          r.owner.settings = { o.settings with file := some name }) ∧
      (∀ task, (∀ d, .reported d ∉ (o.runTask s task).events) →
        ∃ name path text, o.Finds s task name path text) ∧
      (∀ task name path text, o.Finds s task name path text →
        ∀ (q : Owner) (t : Surroundings), q.settings = (o.runTask s task).owner.settings →
          q.code = (o.runTask s task).owner.code → t.files = s.files → t.roots = s.roots →
          q.Finds t (.read none) name path text ∧
            (q.runTask t (.read none)).owner = q ∧ (q.runTask t (.read none)).events = []) := by
  refine ⟨?_, ?_, ?_⟩
  · intro asked name path text finds m selector args r ran
    obtain ⟨settings, bytes⟩ := finds.taken
    obtain ⟨owner, events⟩ := runTask_load finds
    obtain ⟨asked_owner, asked_events⟩ := handle_executeFile selector args o s
    -- The file is read once more to be run, and gives what the owner holds by then.
    have same : o.scripts.executeFile s.files path = ran := by
      rw [finds.executeFile, ← bytes]
    rw [same] at owner events asked_owner asked_events
    refine ⟨events.trans asked_events.symm, ?_, events, ?_, ?_, settings⟩
    · rw [owner, asked_owner]
      rfl
    · rw [owner]
      rfl
    · rw [bytes]
      exact Files.readText_ok finds.readable
  · intro task quiet
    by_contra lost
    obtain ⟨d, told⟩ := runTask_lost fun name path text finds => lost ⟨name, path, text, finds⟩
    apply quiet d
    rw [told]
    exact List.mem_singleton_self _
  · intro task name path text finds q t settings code files roots
    obtain ⟨remembered, bytes⟩ := finds.taken
    have file : q.settings.file = some name := by rw [settings, remembered]
    have again := finds.again file files roots
    obtain ⟨owner, events⟩ := runTask_read again
    refine ⟨again, ?_, events⟩
    rw [owner, holding_self file]
    rw [code, bytes]

theorem searched_load_runs :
    let o : Owner := { settings := {}, scripts := .fresh (.ofNat 1) none }
    let s : Surroundings := ⟨1, {},
      { entries := [(["lib"], .directory), (["lib", "a.js"], .file (ofString "1\r\n2\r"))] }, ["lib"]⟩
    let m := Message.ofAtoms "execfile" [.symbol "lib/a.js"]
    let r := o.runTask s (.load "a.js")
    r.events = (o.handle s m).events ∧ r.owner.scripts = (o.handle s m).owner.scripts ∧
      r.owner.settings = { file := some "a.js" } ∧ r.owner.code.bytes = ofString "1\n2\n" := by
  intro o s m r
  have finds : o.Finds s (.load "a.js") "a.js" "lib/a.js" (ofString "1\n2\n") :=
    ⟨by decide +kernel, by decide +kernel, by decide +kernel⟩
  obtain ⟨events, scripts, _, _, _, settings⟩ :=
    (load_runs_what_it_reads o s).1 _ _ _ _ finds m rfl rfl
  exact ⟨events, scripts, settings, finds.taken.2⟩

end Owner

end Patchbay
