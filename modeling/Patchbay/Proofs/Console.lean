import Patchbay.Console
import Patchbay.Proofs.Host.Table
import Patchbay.Proofs.Host.Turn

/-!
The loop of the program. Every line is one step of the host and one turn after it, so nothing waits when
the next line is taken, and a line that puts work off has freed nobody before its turn. Only a start that
was refused would leave the name of the host's module in the table, and every start is granted here; any
namespace may be refused. The files may change before each line. A script can end the process alone where
the engine does not hold it back from the end of the stack.
-/
namespace Patchbay

open Text

/-- Nothing keeps the interpreter from starting: as long as it has not, the name of the host's module is
free. -/
def Host.Unclaimed (h : Host) : Prop :=
  h.lifecycle.state = .uninitialized → hostModuleName ∉ h.lifecycle.modules.names

theorem Host.Unclaimed.after {h : Host} (unclaimed : h.Unclaimed) (regular : h.Regular) {s : Step}
    (registers : (Deed.own s).registers? = none) (granted : (Deed.own s).asks? ≠ some false) :
    (h.after s).1.Unclaimed := by
  have brought : hostModuleName ∉ h.registered [.own s] := by simp [registered, brings, registers]
  exact unclaimed_meetAll regular unclaimed brought (by simpa using granted)

theorem Host.Unclaimed.spawn_result {h : Host} (unclaimed : h.Unclaimed) (regular : h.Regular)
    (settings : OwnerSettings) (room : Room) (name : String) :
    (h.spawn settings room).result ≠ .error (.nameTaken name) := by
  intro failed
  obtain ⟨fresh, there⟩ := Fails.name_there regular (.spawn settings room failed)
  exact unclaimed fresh there

theorem Host.Sound.regular {h : Host} (sound : h.Sound) : h.Regular := ⟨sound.coherent, sound.named⟩

namespace Console

def stepOf (c : Console) (line : List Char) (room : Room) : Host.Step :=
  let (command, rest) := splitWord line
  match command with
  | "new" =>
    .spawn (if rest.isEmpty then c.ownerSettings else { c.ownerSettings with name := some rest }) room
  | "free" => .free ⟨rest⟩
  | owner => .sendLine ⟨owner⟩ rest

structure Settled (s : InterpreterSettings) (h : Host) : Prop where
  booked : h.Booked {}
  unclaimed : h.Unclaimed
  settings : h.lifecycle.settings = s

/-- A console that the loop of the program can have when it takes a line. The interpreter starts if it is to. -/
inductive Reached (first : Console) : Console → Prop
  | first : Reached first first
  | files {c : Console} (f : Files.Tree → Files.Tree) (before : Reached first c) :
      Reached first { c with host := c.host.changeFiles f }
  | line {c k : Console} {stack : Nat} {given : Given} {bytes : Utf8.Bytes} {written : List Written}
      (before : Reached first c) (starts : given.room.starts = true)
      (goesOn : c.stepBytes stack given bytes = (.goOn k, written)) : Reached first k

/-- An input whose lines are text, up to the first that ends the program. -/
inductive Readable : List Utf8.Bytes → Prop
  | nil : Readable []
  | quit {line : Utf8.Bytes} {rest : List Utf8.Bytes} (text : List Char)
      (decoded : Utf8.decode? (withoutBreak line) = some text) (asks : trim text = "quit".toList) :
      Readable (line :: rest)
  | cons {line : Utf8.Bytes} {rest : List Utf8.Bytes} (text : List Char)
      (decoded : Utf8.decode? (withoutBreak line) = some text) (readable : Readable rest) :
      Readable (line :: rest)

end Console

def World.Starts (w : World) : Prop := ∀ number l, (w.given number l).room.starts = true

/-- All scripts come back: the engine throws before the stack of the process ends, or no script calls that deep. -/
def World.Returns (w : World) (s : InterpreterSettings) : Prop :=
  (Interpreter.start s).staysWithin w.stack = true ∨ ∀ number l, (w.given number l).deep = false

namespace Console

variable {s : InterpreterSettings}

theorem settled_start {o : CommandLine.Options} {files : Files.Tree} {c : Console}
    (started : start o files = .ok c) : Settled c.host.lifecycle.settings c.host := by
  have opened (s : Settings) : Settled s.interpreter (ofSettings s o.searchPaths files).host := by
    have sound := Host.sound_opening s.interpreter {} files (s.searchPaths ++ o.searchPaths)
    exact ⟨⟨sound, rfl, by simp, by simp⟩, fun _ => List.not_mem_nil, rfl⟩
  unfold start at started
  split at started
  · cases started
    exact opened {}
  · split at started
    · cases started
      exact opened _
    · cases started

theorem stepOf_asks (c : Console) (line : List Char) {room : Room} (starts : room.starts = true) :
    (Host.Deed.own (c.stepOf line room)).registers? = none ∧
      (Host.Deed.own (c.stepOf line room)).asks? ≠ some false := by
  obtain ⟨command, rest, words⟩ : ∃ command rest, splitWord line = (command, rest) := ⟨_, _, rfl⟩
  by_cases new : command = "new"
  · subst new
    simp only [stepOf, words]
    exact ⟨rfl, by simp [Host.Deed.asks?, starts]⟩
  by_cases free : command = "free"
  · subst free
    simp only [stepOf, words]
    exact ⟨rfl, (Option.some_ne_none false).symm⟩
  · simp only [stepOf, words]
    exact ⟨rfl, (Option.some_ne_none false).symm⟩

theorem create_goesOn {c : Console} (settled : Settled s c.host) (name : String) (room : Room) :
    ∃ written, c.create name room = .ok ({ c with host := (c.host.after (.spawn
      (if name.isEmpty then c.ownerSettings else { c.ownerSettings with name := some name }) room)).1 },
      written) := by
  unfold create
  dsimp only
  generalize (if name.isEmpty then c.ownerSettings else _) = settings
  have named := settled.unclaimed.spawn_result settled.booked.sound.regular settings room
  split
  · exact ⟨_, rfl⟩
  · rename_i name failed
    exact absurd failed (named name)
  · exact ⟨_, rfl⟩

/-- Whatever a line asks, the program goes on to its turn. -/
theorem dispatch_goesOn {c : Console} (settled : Settled s c.host) (line : List Char) (room : Room) :
    ∃ written, c.dispatch line room =
      .ok ({ c with host := (c.host.after (c.stepOf line room)).1 }, written) := by
  obtain ⟨command, rest, words⟩ : ∃ command rest, splitWord line = (command, rest) := ⟨_, _, rfl⟩
  by_cases new : command = "new"
  · subst new
    simp only [dispatch, stepOf, words]
    exact create_goesOn settled rest room
  by_cases free : command = "free"
  · subst free
    simp only [dispatch, stepOf, words]
    exact ⟨_, rfl⟩
  · simp only [dispatch, stepOf, words]
    exact ⟨_, rfl⟩

theorem enter_first (h : Host) {s : Host.Step} (stays : s ≠ .turn) :
    (h.enter {} s).accepted = h.accepted s ∧ (h.enter {} s).due = h.accepted s := by
  cases s
  case turn => exact absurd rfl stays
  case free i =>
    unfold Host.enter
    dsimp only
    split <;> exact ⟨rfl, rfl⟩
  all_goals simp [Host.enter, Host.Ledger.due]

theorem stepOf_stays (c : Console) (line : List Char) (room : Room) : c.stepOf line room ≠ .turn := by
  unfold stepOf
  dsimp only
  split <;> exact nofun

theorem turn_serves {h : Host} {t : Host.Ledger} (booked : h.Booked t) (kept : t.due = t.accepted) :
    Host.Served { h with deferred := {} } h.deferred.pending h.turn.host h.turn.events ∧
      h.turn.result = h.pending := by
  obtain ⟨served, ran, _⟩ := Host.served_runAll booked.sound.emptied h.deferred.pending
  have all : h.deferred.pending.filter (fun w => Host.present { h with deferred := {} } w.1) =
      h.deferred.pending := by
    rw [booked.waiting]
    exact booked.due.trans kept
  rw [all] at served ran
  exact ⟨served, ran⟩

theorem Settled.turn {c : Console} (settled : Settled s c.host) (line : List Char) {room : Room}
    (starts : room.starts = true) : Settled s (c.host.after (c.stepOf line room)).1.turn.host := by
  obtain ⟨registers, granted⟩ := c.stepOf_asks line starts
  have regular := settled.booked.sound.regular
  have booked := settled.booked.after (c.stepOf line room)
  have unclaimed := settled.unclaimed.after regular registers granted
  have settings := (regular.settings_after (c.stepOf line room)).trans settled.settings
  exact ⟨booked.turn, unclaimed.after (s := .turn) booked.sound.regular rfl nofun,
    (booked.sound.regular.settings_after .turn).trans settings⟩

theorem Settled.stays {c : Console} (settled : Settled s c.host) {stack : Nat}
    (within : (Interpreter.start s).staysWithin stack = true) (given : Given) :
    c.overflows stack given = false := by
  have limits := settled.booked.sound.coherent.limits
  unfold overflows
  cases running : c.host.lifecycle.interpreter with
  | none => exact Bool.and_false _
  | some i => simp [limits i running, settled.settings, within]

/-- What becomes of a line that is text: it is blank, it ends the program, its scripts end the process, or its
step and a turn are done. -/
inductive Taken (c : Console) (stack : Nat) (given : Given) (line : List Char) :
    Progress × List Written → Prop
  | blank (empty : line = []) : Taken c stack given line (.goOn c, [])
  | quit (asks : line = "quit".toList) : Taken c stack given line (.quit, [])
  | overflow (deep : c.overflows stack given = true) : Taken c stack given line (.overflow, [])
  | done {written : List Written} (more : line ≠ []) (stays : line ≠ "quit".toList)
      (dispatched : c.dispatch line given.room =
        .ok ({ c with host := (c.host.after (c.stepOf line given.room)).1 }, written)) :
      Taken c stack given line
        (.goOn { c with host := (c.host.after (c.stepOf line given.room)).1.turn.host },
          written ++ (c.host.after (c.stepOf line given.room)).1.turn.events.map writeEvent)

theorem taken_step {c : Console} (settled : Settled s c.host) (stack : Nat) (given : Given)
    {bytes : Utf8.Bytes} {text : List Char} (decoded : Utf8.decode? (withoutBreak bytes) = some text) :
    Taken c stack given (trim text) (c.stepBytes stack given bytes) := by
  simp only [stepBytes, decoded, step, String.toList_ofList]
  split
  · rename_i empty
    exact .blank (List.isEmpty_iff.mp empty)
  · rename_i more
    rw [List.isEmpty_iff] at more
    split
    · rename_i asks
      exact .quit (eq_of_beq asks)
    · rename_i stays
      rw [beq_iff_eq] at stays
      split
      · rename_i deep
        exact .overflow deep
      · obtain ⟨written, dispatched⟩ := dispatch_goesOn settled (trim text) given.room
        rw [dispatched]
        exact .done more stays dispatched

theorem settled_files {h : Host} (settled : Settled s h) (f : Files.Tree → Files.Tree) :
    Settled s (h.changeFiles f) := by
  have regular := settled.booked.sound.regular
  exact ⟨settled.booked.after (.changeFiles f),
    settled.unclaimed.after (s := .changeFiles f) regular rfl nofun, settled.settings⟩

theorem Reached.settled {first c : Console} (opened : Settled s first.host) (reached : Reached first c) :
    Settled s c.host := by
  induction reached with
  | first => exact opened
  | files f _ ih => exact settled_files ih f
  | @line c k stack given bytes written _ starts goesOn ih =>
    cases decoded : Utf8.decode? (withoutBreak bytes) with
    | none => simp [stepBytes, decoded] at goesOn
    | some text =>
      have taken := taken_step ih stack given decoded
      rw [goesOn] at taken
      cases taken with
      | blank => exact ih
      | done => exact ih.turn (trim text) starts

theorem Settled.comesBack {c : Console} (settled : Settled s c.host) {w : World} (returns : w.Returns s)
    (number : Nat) (l : Lifecycle) : c.overflows w.stack (w.given number l) = false := by
  obtain within | shallow := returns
  · exact settled.stays within _
  · rw [overflows, shallow, Bool.false_and]

/-- A readable input comes to its end, or to the line that asks for the end. -/
theorem runLines_ends {w : World} (starts : w.Starts) (returns : w.Returns s) {lines : List Utf8.Bytes}
    (readable : Readable lines) {c : Console} (settled : Settled s c.host) (number : Nat) :
    (c.runLines w number lines).2 = .done := by
  induction readable generalizing c number with
  | nil => rfl
  | @quit line rest text decoded asks =>
    have taken := taken_step settled w.stack (w.given number c.host.lifecycle) decoded
    rw [runLines]
    generalize c.stepBytes w.stack _ line = r at taken ⊢
    cases taken with
    | blank empty => simp [empty] at asks
    | quit => rfl
    | overflow deep =>
      rw [settled.comesBack returns] at deep
      cases deep
    | done _ stays => exact absurd asks stays
  | @cons line rest text decoded _ ih =>
    have taken := taken_step settled w.stack (w.given number c.host.lifecycle) decoded
    have started := starts number c.host.lifecycle
    have held := settled.comesBack returns number c.host.lifecycle
    rw [runLines]
    generalize w.given number c.host.lifecycle = given at taken started held ⊢
    generalize c.stepBytes w.stack given line = r at taken ⊢
    cases taken with
    | blank => exact ih settled _
    | quit => rfl
    | overflow deep =>
      rw [held] at deep
      cases deep
    | done => exact ih (settled.turn (trim text) started) _

def narrowWorld : World := { given := fun number _ => ⟨⟨true, number != 1⟩, true⟩ }

end Console

end Patchbay
