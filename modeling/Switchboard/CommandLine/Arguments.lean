/-! The arguments of the command line. Options stand in any order and are read from left to right;
help and version end the reading, and so does the first argument that does not fit. -/
namespace Switchboard.CommandLine

structure Arguments where
  config : Option String := none
  route : Option String := none
  method : Option String := none
  body : Option String := none
  query : Option String := none
  headers : List String := []
  jsonLogs : Bool := false
  logLevel : Option String := none
  exampleConfig : Bool := false
  validate : Bool := false
  deriving DecidableEq

/-- Options that have a value. -/
inductive Setting where
  | config
  | route
  | method
  | body
  | query
  | header
  | logLevel
  deriving DecidableEq

inductive Switch where
  | jsonLogs
  | exampleConfig
  | validate
  | help
  | version
  deriving DecidableEq

def settingOf? : String → Option Setting
  | "config" => some .config
  | "route" => some .route
  | "method" => some .method
  | "body" => some .body
  | "query" => some .query
  | "header" => some .header
  | "log-level" => some .logLevel
  | _ => none

def switchOf? : String → Option Switch
  | "json-logs" => some .jsonLogs
  | "example-config" => some .exampleConfig
  | "validate" => some .validate
  | "help" => some .help
  | "version" => some .version
  | _ => none

def settingOfChar? : Char → Option Setting
  | 'c' => some .config
  | 'r' => some .route
  | 'm' => some .method
  | _ => none

/-- What is asked for. -/
inductive Demand where
  | run (a : Arguments)
  | help
  | version
  | refused
  deriving DecidableEq

/-- A value for a setting. Only headers may be given more than once, and a path is not empty. -/
def Arguments.set? (a : Arguments) (s : Setting) (v : String) : Option Arguments :=
  match s with
  | .config => if a.config = none ∧ v ≠ "" then some { a with config := some v } else none
  | .route => if a.route = none then some { a with route := some v } else none
  | .method => if a.method = none then some { a with method := some v } else none
  | .body => if a.body = none then some { a with body := some v } else none
  | .query => if a.query = none then some { a with query := some v } else none
  | .header => some { a with headers := a.headers ++ [v] }
  | .logLevel => if a.logLevel = none then some { a with logLevel := some v } else none

/-- An argument that may be the value of the one before: all but those that look like options. -/
def isValue (v : String) : Bool := v == "-" || v.toList.head? != some '-'

/-- A switch that is given once. -/
def Arguments.turnOn? (a : Arguments) (s : Switch) : Option Arguments :=
  match s with
  | .jsonLogs => if a.jsonLogs then none else some { a with jsonLogs := true }
  | .exampleConfig => if a.exampleConfig then none else some { a with exampleConfig := true }
  | .validate => if a.validate then none else some { a with validate := true }
  | _ => none

/-- An argument on its own. -/
inductive Word where
  | setting (s : Setting) (value : Option String)
  | switch (s : Switch)
  | endOfOptions
  | other

/-- A name in full, with a value after an equals sign. -/
def longWord (s : List Char) : Word :=
  let name := String.ofList (s.takeWhile (· ≠ '='))
  let value := if '=' ∈ s then some (String.ofList ((s.dropWhile (· ≠ '=')).drop 1)) else none
  match settingOf? name, switchOf? name, value with
  | some o, _, value => .setting o value
  | none, some o, none => .switch o
  | _, _, _ => .other

/-- A single letter, with a value directly after it or after an equals sign. -/
def shortWord (c : Char) (s : List Char) : Word :=
  if c = 'h' then .switch .help
  else if c = 'V' then .switch .version
  else
    match settingOfChar? c, s with
    | some o, [] => .setting o none
    | some o, '=' :: v => .setting o (some (String.ofList v))
    | some o, v => .setting o (some (String.ofList v))
    | none, _ => .other

def wordOf (arg : String) : Word :=
  match arg.toList with
  | ['-', '-'] => .endOfOptions
  | '-' :: '-' :: s => longWord s
  | '-' :: c :: s => shortWord c s
  | _ => .other

/-- Read arguments, of which `a` have been read, and a setting that waits for its value. -/
def parseAfter (a : Arguments) : Option Setting → List String → Demand
  | none, [] => .run a
  | some _, [] => .refused
  | some s, v :: rest =>
    match if isValue v then a.set? s v else none with
    | some b => parseAfter b none rest
    | none => .refused
  | none, arg :: rest =>
    match wordOf arg with
    | .setting s none => parseAfter a (some s) rest
    | .setting s (some v) =>
      match a.set? s v with
      | some b => parseAfter b none rest
      | none => .refused
    | .switch .help => .help
    | .switch .version => .version
    | .switch s =>
      match a.turnOn? s with
      | some b => parseAfter b none rest
      | none => .refused
    | .endOfOptions => if rest.isEmpty then .run a else .refused
    | .other => .refused

def parse (args : List String) : Demand := parseAfter {} none args

example : parse ["-r/a", "--header=x:y", "--body", "-"]
    = .run { route := some "/a", headers := ["x:y"], body := some "-" } := by decide +kernel
example : parse ["--route", "/a", "-r", "/b"] = .refused := by decide +kernel

end Switchboard.CommandLine
