import Switchboard.CommandLine.Program

/-! The command line program. -/
open Switchboard CommandLine

/-- The contents of a file, or why there are none. -/
def readContents (path : String) : IO (Except String String) := do
  try
    return .ok (← IO.FS.readFile path)
  catch e =>
    match e with
    | .noFileOrDirectory .. => return .error "No such file or directory (os error 2)"
    | e => return .error (toString e)

/-- The demand, with the path from the environment where the arguments name none. -/
def withDefaultPath (path : Option String) : Demand → Demand
  | .run a => .run { a with config := a.config.or path }
  | d => d

def main (args : List String) : IO UInt32 := do
  let path ← IO.getEnv "INTEGRATION_ROUTER_CONFIG"
  let demand := withDefaultPath path (parse args)
  let contents ← match demand with
    | .run a =>
      match a.config with
      | some path => readContents path
      | none => pure (.error "")
    | _ => pure (.error "")
  let outcome := demand.outcome contents
  IO.print outcome.output
  IO.eprint outcome.errors
  return outcome.exitCode.toUInt32
