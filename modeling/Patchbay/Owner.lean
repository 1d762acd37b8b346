import Patchbay.Lifecycle
import Patchbay.Message
import Patchbay.Outlet
import Patchbay.TextBuffer
/-!
An owner: attributes, the text in its editor and a namespace of its own. It answers messages with
events and may put work off to a later turn. Its name and its debug flag only show in the log.
-/
namespace Patchbay

structure Owner where
  settings : OwnerSettings
  code : TextBuffer := {}
  scripts : Namespace

/-- What an owner sees of the host while it works. -/
structure Surroundings where
  active : Nat
  modules : ModuleTable
  files : Files.Tree
  roots : List String

/-- What became of an owner, and what it did on the way. -/
structure Response where
  owner : Owner
  events : List Event := []
  tasks : List DeferredTask := []
  log : List Log.Entry := []

namespace Owner

def identity (o : Owner) : Identity := o.scripts.identity

def label (o : Owner) : String := o.settings.name.getD o.identity.text

def note (o : Owner) (text : String) : List Log.Entry :=
  if o.settings.debug then [.note o.label text] else []

def report (o : Owner) (d : Diagnostic) : Response :=
  { owner := o
    events := [.reported d]
    log := .failure o.label d.text ::
      if o.settings.debug then d.traceback.toList.map (.traceback o.label) else [] }

def after (log : List Log.Entry) (r : Response) : Response := { r with log := log ++ r.log }

def follow {α : Type} (o : Owner) (a : Answer α) : Owner := { o with scripts := a.after }

def emit (o : Owner) (channel : Channel) (output : Output) : Event := .emitted o.identity channel output

def signal (o : Owner) : Event := o.emit .signal .bang

def fault (o : Owner) (m : Message) (text : String) : Diagnostic := .make o.identity m.selector "" text

/-- An owner that was asked for, and what the asking left. -/
structure Making where
  result : Except LifecycleError Owner
  lifecycle : Lifecycle
  supply : Supply
  log : List Log.Entry

/-- Makes an owner. When its namespace is refused the reference taken for it is given back. -/
def make (l : Lifecycle) (s : Supply) (settings : OwnerSettings) (room : Room) : Making :=
  match l.acquire room.starts with
  | (.error e, l) => ⟨.error e, l, s, []⟩
  | (.ok log, l) =>
    match l.createNamespace s room.fits with
    | (.ok (n, l, more), s) =>
      let o : Owner := { settings := settings, scripts := n }
      ⟨.ok o, l, s, log ++ more ++ o.note "object created"⟩
    | (.error e, s) =>
      let (l, more) := l.release
      ⟨.error e, l, s, log ++ more⟩

def noArgs (o : Owner) (m : Message) : Except Diagnostic Unit :=
  if m.args.isEmpty then .ok () else .error (o.fault m "unexpected arguments")

def optionalSymbol (o : Owner) (m : Message) : Except Diagnostic (Option String) :=
  match m.args with
  | [] => .ok none
  | [.symbol s] => .ok (some s)
  | [other] => .error (o.fault m ("expected a symbol, got '" ++ other.text ++ "'"))
  | _ => .error (o.fault m "too many arguments")

def symbol (o : Owner) (m : Message) : Except Diagnostic String :=
  match o.optionalSymbol m with
  | .ok (some s) => .ok s
  | .ok none => .error (o.fault m "missing argument")
  | .error d => .error d

def source (o : Owner) (m : Message) : Except Diagnostic String :=
  if m.args.isEmpty then .error (o.fault m "missing argument") else .ok m.source

def finish (o : Owner) (a : Answer Unit) : Response :=
  let o := o.follow a
  match a.outcome with
  | .ok () => { owner := o, events := [o.signal], log := a.log }
  | .error d => after a.log (o.report d)

/-- Replies the value of an expression, if a reply can carry it, and signals. -/
def evaluate (o : Owner) (source : String) : Response :=
  let a := o.scripts.evaluate source
  let o := o.follow a
  match a.outcome with
  | .ok value =>
    { owner := o
      events := (value.toList.map fun r => o.emit .reply (.value r)) ++ [o.signal]
      log := a.log }
  | .error d => after a.log (o.report d)

def execute (o : Owner) (source : String) : Response := o.finish (o.scripts.execute source)

def executeFile (o : Owner) (s : Surroundings) (path : String) : Response :=
  o.finish (o.scripts.executeFile s.files path)

def importModule (o : Owner) (s : Surroundings) (name : String) : Response :=
  let a := o.scripts.importModule s.modules name
  let r := o.finish a
  if a.outcome.isOk then { r with log := r.log ++ o.note ("imported: " ++ name) } else r

structure Reading where
  owner : Owner
  path : String
  log : List Log.Entry

/-- Reads a file into the owner's text and remembers its name. A failure changes nothing. -/
def read (o : Owner) (s : Surroundings) (name : Option String) : Except Diagnostic Reading :=
  match (name.filter fun n => !n.isEmpty).or o.settings.file with
  | none => .error (.make o.identity "read" "" "no file to read")
  | some name =>
    let found : Except Files.FileError (String × Text.Utf8.Bytes) := do
      let path ← Files.locate s.files s.roots name
      return (path, ← Files.readText s.files path)
    match found with
    | .error e => .error (.make o.identity "read" name e.message)
    | .ok (path, text) =>
      let o := { o with settings := { o.settings with file := some name }, code := o.code.setText text }
      .ok ⟨o, path, o.note ("read " ++ path ++ " (" ++ toString text.length ++ " bytes)")⟩

def runTask (o : Owner) (s : Surroundings) (task : DeferredTask) : Response :=
  match task with
  | .read name =>
    match o.read s name with
    | .ok r => { owner := r.owner, log := r.log }
    | .error d => o.report d
  | .load name =>
    match o.read s (some name) with
    | .ok r => after r.log (r.owner.executeFile s r.path)
    | .error d => o.report d

def perform (o : Owner) (s : Surroundings) (m : Message) : Except Diagnostic Response :=
  match m.selector with
  | "bang" => (o.noArgs m).map fun _ => { owner := o, events := [o.emit .reply .bang] }
  | "count" => (o.noArgs m).map fun _ =>
      { owner := o, events := [o.emit .reply (.value (.scalar (.int (Int64.ofNat s.active))))] }
  | "import" => (o.symbol m).map (o.importModule s)
  | "eval" => (o.source m).map o.evaluate
  | "exec" => (o.source m).map o.execute
  | "execfile" => (o.symbol m).map (o.executeFile s)
  | "load" => (o.symbol m).map fun name => { owner := o, tasks := [.load name] }
  | "read" => (o.optionalSymbol m).map fun name => { owner := o, tasks := [.read name] }
  | _ => .error (o.fault m "no method for message")

def handle (o : Owner) (s : Surroundings) (m : Message) : Response :=
  after (o.note m.text)
    (match o.perform s m with
      | .ok r => r
      | .error d => o.report d)

def closeEditor (o : Owner) (text : Text.Utf8.Bytes) : Owner := { o with code := o.code.setText text }

def saveEditor (o : Owner) (text : Text.Utf8.Bytes) : Response :=
  let o := o.closeEditor text
  let name := o.settings.file.getD ""
  let a := o.scripts.executeBuffer name o.code.toSource
  let log := o.note ("running editor code " ++ name) ++ a.log
  let o := o.follow a
  match a.outcome with
  | .ok () => { owner := o, log := log }
  | .error d => after log (o.report d)

end Owner

end Patchbay
