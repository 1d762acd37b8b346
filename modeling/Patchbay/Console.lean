import Patchbay.CommandLine.Options
import Patchbay.Host
import Patchbay.Settings.Load
/-!
The program itself: it reads lines, turns each into a step of the host followed by a turn, and writes
what the owners send back. It ends with the input, at a line that asks for it, or at a failure that it
cannot go on from.
-/
namespace Patchbay

open Text

/-- Something written, as a line of the output or of the error output. -/
inductive Written
  | out (line : String)
  | err (line : String)
  deriving DecidableEq, Inhabited, Repr

/-- A failure that ends the program, with what lies behind it. -/
structure Failure where
  message : String
  causes : List String
  deriving DecidableEq, Inhabited, Repr

namespace Failure

def indented (first further : String) (s : String) : String :=
  first ++ String.intercalate ("\n" ++ further) ((s.toList.splitOn '\n').map String.ofList)

def causeLines (causes : List String) : List String :=
  match causes with
  | [cause] => [indented "    " "    " cause]
  | causes => causes.zipIdx.map fun (cause, n) =>
    let number := toString n
    indented (String.ofList (List.replicate (5 - number.length) ' ') ++ number ++ ": ") "       " cause

def text (f : Failure) : String :=
  "Error: " ++ f.message ++ "\n" ++
    if f.causes.isEmpty then "" else
      "\nCaused by:\n" ++ String.join ((causeLines f.causes).map (· ++ "\n"))

end Failure

structure Console where
  host : Host
  /-- The attributes of owners that are made without a name. -/
  ownerSettings : OwnerSettings := {}
  deriving Inhabited

structure Given where
  room : Room := {}
  /-- Whether scripts of the line call deeper than the stack of the process goes, unless the engine throws. -/
  deep : Bool := false
  deriving DecidableEq, Inhabited, Repr

/-- What the program runs in: how many bytes of its stack are left to the engine, and what the lines are given
in turn. -/
structure World where
  stack : Nat := 8388608
  given : Nat → Lifecycle → Given := fun _ l => { room := l.room }

/-- What a line led to: the console goes on, or the program ends. -/
inductive Progress
  | goOn (c : Console)
  | quit
  | fail (f : Failure)
  | overflow

namespace Console

def ofSettings (s : Settings) (searchPaths : List String) (files : Files.Tree) : Console :=
  { host := { lifecycle := .ofSettings s.interpreter, roots := s.searchPaths ++ searchPaths, files := files }
    ownerSettings := s.owner }

def writeEvent : Event → Written
  | .emitted owner channel output =>
    .out (owner.text ++ (match channel with
      | .signal => " 0: "
      | .reply => " 1: ") ++ output.text)
  | .reported d => .err d.text

def noOwner (name : String) : Written := .err ("no owner '" ++ name ++ "'")

def after {α : Type} (c : Console) (r : Host.Report α) (more : List Written) :
    Except Failure (Console × List Written) :=
  .ok ({ c with host := r.host }, r.events.map writeEvent ++ more)

def create (c : Console) (name : String) (room : Room) : Except Failure (Console × List Written) :=
  let settings := if name.isEmpty then c.ownerSettings else { c.ownerSettings with name := some name }
  let r := c.host.spawn settings room
  match r.result with
  | .ok i => c.after r [.out i.text]
  | .error (.nameTaken name) =>
    .error ⟨"interpreter startup failed: " ++ (LifecycleError.nameTaken name).message, []⟩
  | .error e => c.after r [.err ("cannot create owner: " ++ e.message)]

def splitWord (line : List Char) : String × String :=
  (String.ofList (line.takeWhile fun c => !isBlank c),
    String.ofList (trim (line.dropWhile fun c => !isBlank c)))

def dispatch (c : Console) (line : List Char) (room : Room) : Except Failure (Console × List Written) :=
  let (command, rest) := splitWord line
  match command with
  | "new" => c.create rest room
  | "free" =>
    let r := c.host.free ⟨rest⟩
    c.after r (if r.result then [] else [noOwner rest])
  | owner =>
    let r := c.host.sendLine ⟨owner⟩ rest
    c.after r (match r.result with
      | .ok true => []
      | .ok false => [noOwner owner]
      | .error e => [.err ("bad message: " ++ e.message)])

def turn (c : Console) : Console × List Written :=
  let r := c.host.turn
  ({ c with host := r.host }, r.events.map writeEvent)

/-- Whether the scripts of a line end the process: they call too deep, and the engine lets them. -/
def overflows (c : Console) (stack : Nat) (g : Given) : Bool :=
  g.deep && c.host.lifecycle.interpreter.any fun i => !i.staysWithin stack

def step (c : Console) (stack : Nat) (g : Given) (line : String) : Progress × List Written :=
  let line := trim line.toList
  if line.isEmpty then (.goOn c, [])
  else if line == "quit".toList then (.quit, [])
  else if c.overflows stack g then (.overflow, [])
  else
    match c.dispatch line g.room with
    | .error f => (.fail f, [])
    | .ok (c, written) =>
      let (c, more) := c.turn
      (.goOn c, written ++ more)

def wanted (c : Console) (line : String) : List String :=
  let (owner, rest) := splitWord (trim line.toList)
  match c.host.owner? ⟨owner⟩, Message.parse rest with
  | some o, .ok m =>
    (m.args.filterMap Atom.asSymbol? ++ o.settings.file.toList).flatMap
      (Files.candidates c.host.roots)
  | _, _ => []

def withSeen (c : Console) (seen : List (String × Except Files.SystemError Files.Node)) : Console :=
  { c with host := c.host.changeFiles fun t => { t with seen := seen } }

def withoutBreak (line : Utf8.Bytes) : Utf8.Bytes :=
  match line.reverse with
  | 0x0A :: 0x0D :: rest | 0x0A :: rest => rest.reverse
  | _ => line

def stepBytes (c : Console) (stack : Nat) (g : Given) (line : Utf8.Bytes) : Progress × List Written :=
  match Utf8.decode? (withoutBreak line) with
  | none => (.fail ⟨"reading stdin", [Files.SystemError.notUtf8.text]⟩, [])
  | some text => c.step stack g (String.ofList text)

def linesOf : Utf8.Bytes → List Utf8.Bytes
  | [] => []
  | b :: rest =>
    if b == 0x0A then [b] :: linesOf rest
    else
      match linesOf rest with
      | [] => [[b]]
      | line :: lines => (b :: line) :: lines

inductive Ending
  | done
  | failed (f : Failure)
  | overflowed
  deriving DecidableEq, Inhabited, Repr

def runLines (c : Console) (w : World) (number : Nat) : List Utf8.Bytes → List Written × Ending
  | [] => ([], .done)
  | line :: rest =>
    match c.stepBytes w.stack (w.given number c.host.lifecycle) line with
    | (.goOn c, written) =>
      let (more, ending) := c.runLines w (number + 1) rest
      (written ++ more, ending)
    | (.quit, written) => (written, .done)
    | (.fail f, written) => (written, .failed f)
    | (.overflow, written) => (written, .overflowed)

end Console

structure Transcript where
  exit : Nat
  out : String
  err : String
  deriving DecidableEq, Inhabited, Repr

namespace Transcript

def outLines (written : List Written) : List String :=
  written.filterMap fun w =>
    match w with
    | .out line => some (line ++ "\n")
    | .err _ => none

def errLines (written : List Written) : List String :=
  written.filterMap fun w =>
    match w with
    | .err line => some (line ++ "\n")
    | .out _ => none

/-- The exit code for an ending, and what is written to the error output last. -/
def lastWords : Console.Ending → Nat × String
  | .done => (0, "")
  | .failed f => (1, f.text)
  | .overflowed => (134, "\nthread 'main' has overflowed its stack\nfatal runtime error: stack overflow\n")

def ofRun (written : List Written) (ending : Console.Ending) : Transcript :=
  let (exit, words) := lastWords ending
  ⟨exit, String.join (outLines written), String.join (errLines written) ++ words⟩

def ofStop : CommandLine.Stop → Transcript
  | .help => ⟨0, CommandLine.helpText, ""⟩
  | .version => ⟨0, CommandLine.programName ++ " " ++ version ++ "\n", ""⟩
  | .misuse m => ⟨2, "", m.message⟩

end Transcript

namespace Console

def start (o : CommandLine.Options) (files : Files.Tree) : Except Failure Console :=
  match o.settings with
  | none => .ok (.ofSettings {} o.searchPaths files)
  | some path =>
    match Settings.load files path with
    | .ok s => .ok (.ofSettings s o.searchPaths files)
    | .error e => .error ⟨"loading settings from " ++ path, [e.message, e.cause]⟩

def run (args : List String) (input : Utf8.Bytes) (files : Files.Tree) (w : World := {}) : Transcript :=
  match CommandLine.parse args with
  | .error stop => .ofStop stop
  | .ok options =>
    match start options files with
    | .error f => .ofRun [] (.failed f)
    | .ok c =>
      let (written, ending) := c.runLines w 0 (linesOf input)
      .ofRun written ending

end Console

end Patchbay
