import Patchbay.Files.Tree
import Patchbay.Settings.Reader
/-!
Settings loaded from a file.
-/
namespace Patchbay

open Files

inductive SettingsError
  | unreadable (path : String) (cause : SystemError)
  | malformed (complaint : String)
  deriving DecidableEq, Repr

def SettingsError.message : SettingsError → String
  | unreadable path _ => "could not read settings file '" ++ path ++ "'"
  | malformed complaint => "invalid settings: " ++ complaint

def SettingsError.cause : SettingsError → String
  | unreadable _ cause => cause.text
  | malformed complaint => complaint

def Settings.parse (s : String) : Except SettingsError Settings :=
  match Settings.ofJson s with
  | .ok settings => .ok settings
  | .error complaint => .error (.malformed complaint)

def Settings.load (t : Tree) (path : String) : Except SettingsError Settings :=
  match t.read path with
  | .error cause => .error (.unreadable path cause)
  | .ok content =>
    match Text.Utf8.decode? content with
    | none => .error (.unreadable path .notUtf8)
    | some s => Settings.parse (String.ofList s)

end Patchbay
