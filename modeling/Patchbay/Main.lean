import Patchbay.Console
/-!
The program on a system. This layer only reads lines and files and writes what the console says; before
each line it looks at the files that the line may lead to.
-/
namespace Patchbay.Main

open Text

def systemError : IO.Error → Files.SystemError
  | .noFileOrDirectory .. => .noEntry
  | .inappropriateType _ code _ => if code == 21 then .isDirectory else .notDirectory
  | .invalidArgument _ code _ => if code == 36 then .nameTooLong else .noEntry
  | _ => .denied

def look (path : String) : IO (String × Except Files.SystemError Files.Node) := do
  try
    let content ← IO.FS.readBinFile path
    return (path, .ok (.file content.toList))
  catch e =>
    match systemError e with
    | .isDirectory => return (path, .ok .directory)
    | error => return (path, .error error)

partial def readLine (input : IO.FS.Stream) (line : Utf8.Bytes) : IO Utf8.Bytes := do
  let chunk ← input.read 1
  match chunk.toList with
  | [] => return line.reverse
  | b :: _ => if b == 0x0A then return (b :: line).reverse else readLine input (b :: line)

def write (output errors : IO.FS.Stream) (written : List Written) : IO Unit := do
  for w in written do
    match w with
    | .out line => output.putStrLn line
    | .err line => errors.putStrLn line
  output.flush

def leave (errors : IO.FS.Stream) (ending : Console.Ending) : IO UInt32 := do
  let (exit, words) := Transcript.lastWords ending
  errors.putStr words
  return exit.toUInt32

partial def loop (c : Console) (input output errors : IO.FS.Stream) : IO UInt32 := do
  let line ← readLine input []
  if line.isEmpty then return 0
  let seen ← (c.wanted (Utf8.lossyString line)).mapM look
  let given : Given := { room := c.host.lifecycle.room }
  let (progress, written) := (c.withSeen seen).stepBytes ({} : World).stack given line
  write output errors written
  match progress with
  | .goOn c => loop c input output errors
  | .quit => return 0
  | .fail f => leave errors (.failed f)
  | .overflow => leave errors .overflowed

end Patchbay.Main

open Patchbay in
def main (args : List String) : IO UInt32 := do
  let input ← IO.getStdin
  let output ← IO.getStdout
  let errors ← IO.getStderr
  match CommandLine.parse args with
  | .error stop =>
    let t := Transcript.ofStop stop
    output.putStr t.out
    errors.putStr t.err
    return t.exit.toUInt32
  | .ok options =>
    let seen ← options.settings.toList.mapM Main.look
    match Console.start options { seen := seen } with
    | .error f => Main.leave errors (.failed f)
    | .ok c => Main.loop c input output errors
