import Switchboard.CommandLine.Arguments
import Switchboard.CommandLine.Example
import Switchboard.Configuration.File
import Switchboard.Execution.Router

/-! What the program does with its arguments. It has no connection: every request that is well
formed fails for want of a network. -/
namespace Switchboard.CommandLine

/-- Why the program stops, and what is behind it. -/
structure Failure where
  message : String
  causes : List String := []

/-- Lines after the first are indented as well. -/
def indented (first later : String) (s : String) : String :=
  first ++ String.ofList (s.toList.flatMap fun c => if c = '\n' then '\n' :: later.toList else [c])

def numbered (n : Nat) (s : String) : String :=
  let digits := toString n
  let blanks := String.ofList (List.replicate (5 - digits.length) ' ')
  indented (blanks ++ digits ++ ": ") "       " s

/-- The report of a failure. Causes are numbered if there is more than one. -/
def Failure.report (e : Failure) : String :=
  let causes :=
    match e.causes with
    | [] => []
    | [cause] => [indented "    " "    " cause]
    | causes => causes.mapIdx numbered
  let behind := if causes = [] then "" else "\n\nCaused by:" ++ String.join (causes.map ("\n" ++ ·))
  "Error: " ++ e.message ++ behind ++ "\n"

def Failure.ofConfiguration (message : String) (e : Configuration.Error) : Failure :=
  ⟨message, e.message :: e.causes⟩

/-- What the program leaves. -/
inductive Outcome where
  | printed (s : String)
  | executed (r : Result)
  | failed (e : Failure)
  | refused

namespace Outcome

def exitCode : Outcome → UInt8
  | printed _ => 0
  | executed _ => 0
  | failed _ => 1
  | refused => 2

def output : Outcome → String
  | printed s => s
  | executed r => String.ofList (r.toJson.prettyChars 0) ++ "\n"
  | failed _ => ""
  | refused => ""

def errors : Outcome → String
  | printed _ => ""
  | executed _ => ""
  | failed e => e.report
  | refused => "error: the arguments do not fit\n\nFor more information, try '--help'.\n"

end Outcome

def helpLines : List String :=
  [ "Route-binding and aggregation engine for external integrations",
    "",
    "Usage: integration-router [OPTIONS]",
    "",
    "Options:",
    "  -c, --config <CONFIG>        Configuration file path (YAML or JSON) [env: INTEGRATION_ROUTER_CONFIG=]",
    "  -r, --route <ROUTE>          Inbound route path to execute",
    "  -m, --method <METHOD>        Inbound HTTP method [default: GET]",
    "      --body <BODY>            JSON request body",
    "      --query <QUERY>          Query string (k=v&...)",
    "      --header <NAME:VALUE>    Request header as name:value (repeatable)",
    "      --json-logs              Output logs as JSON",
    "      --log-level <LOG_LEVEL>  Log level (trace, debug, info, warn, error) [default: info]",
    "      --example-config         Print example configuration and exit",
    "      --validate               Validate configuration and exit",
    "  -h, --help                   Print help",
    "  -V, --version                Print version"]

def helpText : String := String.join (helpLines.map (· ++ "\n"))

def versionText : String := "integration-router 0.1.0\n"

/-- Signs that may stand in a method beside letters and digits of ASCII. -/
def methodSigns : List Char := "!#$%&'*+-.^_\x60|~".toList

def isMethod (s : String) : Bool :=
  s ≠ "" && s.toList.all fun c => c.isAlphanum || methodSigns.contains c

/-- A transport without a connection. -/
def offline (_ : List Outbound) (o : Outbound) : Reply :=
  if isMethod o.method then .failed (.network ("error sending request for url (" ++ o.url ++ ")"))
  else .failed (.invalidMethod o.method)

/-- A header from its name and its value, which the first colon separates. -/
def addHeader (r : Request) (header : String) : Except Failure Request :=
  let s := header.toList
  if ':' ∈ s then
    let name := String.ofList (Text.trim (s.takeWhile (· ≠ ':')))
    let value := String.ofList (Text.trim ((s.dropWhile (· ≠ ':')).drop 1))
    .ok (r.setHeader name value)
  else .error ⟨"Invalid header '" ++ header ++ "', expected NAME:VALUE", []⟩

/-- The request that arguments describe. -/
def Arguments.request (a : Arguments) : Except Failure Request := do
  let r : Request := { method := Text.upperString (a.method.getD "GET") }
  let r := (a.query.map r.addQuery).getD r
  let r ← match a.body with
    | none => .ok r
    | some s =>
      match Json.parse s with
      | .ok v => .ok (r.setBody v)
      | .error e => .error ⟨"--body is not valid JSON", [e.message]⟩
  a.headers.foldlM addHeader r

/-- The configuration that arguments name, checked; `contents` is that of its file. -/
def Arguments.configuration (a : Arguments) (contents : Except String String) :
    Except Failure Configuration := do
  let c ← match a.config with
    | none => .ok {}
    | some path =>
      (Configuration.ofFile path contents).mapError
        (.ofConfiguration ("Failed to load config file: " ++ path))
  c.validated.mapError (.ofConfiguration "Configuration is invalid")

/-- Execute the route that arguments name. -/
def Arguments.execute (a : Arguments) (c : Configuration) : Except Failure Result := do
  match a.route with
  | none => .error ⟨"--route is required unless --validate or --example-config is given", []⟩
  | some path =>
    let r ← a.request
    return ((c.services [] offline).execute path r.method r (.start c.settings)).1

/-- The outcome of arguments. -/
def Arguments.outcome (a : Arguments) (contents : Except String String) : Outcome :=
  if a.exampleConfig then .printed exampleText
  else
    match a.configuration contents with
    | .error e => .failed e
    | .ok c =>
      if a.validate then .printed ""
      else
        match a.execute c with
        | .error e => .failed e
        | .ok r => .executed r

/-- The outcome of a demand. -/
def Demand.outcome (d : Demand) (contents : Except String String) : Outcome :=
  match d with
  | .run a => a.outcome contents
  | .help => .printed helpText
  | .version => .printed versionText
  | .refused => .refused

end Switchboard.CommandLine
