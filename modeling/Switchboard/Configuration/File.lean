import Switchboard.Configuration.Check
import Switchboard.Configuration.Reader
import Switchboard.Json.Reader

/-! Configurations in files. The name of a file tells its format. -/
namespace Switchboard

/-- What follows the last point in the last component of a path, which has to begin before it. -/
def extension (path : String) : List Char :=
  let component := (path.toList.reverse.dropWhile (· = '/')).takeWhile (· ≠ '/')
  let after := component.takeWhile (· ≠ '.')
  if (component.drop (after.length + 1)).isEmpty then [] else after.reverse

/-- Files are in JSON unless they are named as YAML. -/
def Format.ofPath (path : String) : Format :=
  if extension path = "yaml".toList ∨ extension path = "yml".toList then yaml else json

namespace Configuration

/-- Why a file gives no sound configuration. -/
inductive Error where
  | unreadable (path reason : String)
  | malformed (f : Format) (reason : String)
  | invalid (problems : List Problem)

def Error.message : Error → String
  | unreadable path reason => "Failed to read " ++ path ++ ": " ++ reason
  | malformed .json reason => "JSON parse error: " ++ reason
  | malformed .yaml reason => "YAML parse error: " ++ reason
  | invalid ps => invalidMessage ps

/-- The errors behind an error. -/
def Error.causes : Error → List String
  | unreadable _ reason => [reason]
  | malformed _ reason => [reason]
  | invalid _ => []

/-- The configuration that a text writes. -/
def ofText (f : Format) (s : String) : Except Error Configuration :=
  match Json.read s.toList with
  | .error e => .error (.malformed f e.message)
  | .ok v =>
    match ofJson? f v with
    | some c => .ok c
    | none => .error (.malformed f "a record does not fit")

/-- The configuration in a file of which the contents are given, or why there are none. -/
def ofFile (path : String) (contents : Except String String) : Except Error Configuration :=
  match contents with
  | .error reason => .error (.unreadable path reason)
  | .ok s => ofText (.ofPath path) s

/-- A configuration without problems. -/
def validated (c : Configuration) : Except Error Configuration :=
  match c.problems with
  | [] => .ok c
  | ps => .error (.invalid ps)

end Configuration

example : Format.ofPath "a.json/.yaml" = .json ∧ Format.ofPath "a/b.c.yml/" = .yaml := by
  decide +kernel

end Switchboard
