import Switchboard.Execution.Strategy

/-! Executing routes. Every execution has a result, whatever goes wrong in it. -/
namespace Switchboard
namespace Services

/-- Log a result. What becomes of the entry does not matter. -/
def logResult (sv : Services) (route : Route) (r : Request) (result : Result) :
    Effect Router Unit := do
  let now := (← get).now
  Effect.bestEffort <|
    Effect.within Router.entries (fun j s => { s with entries := j })
      (sv.log.write (.ofResult route r result now))

/-- Execute a route that has been found and may run. -/
def runRoute (sv : Services) (route : Route) (r : Request) : Effect Router Result := do
  let calls ← sv.trail route r
  let (status, data) := sv.outcome route r calls
  let result : Result := ⟨status, data, Call.errorTexts calls, some route, calls⟩
  sv.logResult route r result
  return result

/-- Find a route and execute it. -/
def run (sv : Services) (path method : String) (r : Request) : Effect Router Result := do
  match sv.routes path method with
  | .crashed c => throw c
  | .failed e => return .failed ("Unexpected error: " ++ e.message)
  | .found none => return .failed ("No route found for " ++ Text.upperString method ++ " " ++ path)
  | .found (some route) =>
    if !route.isEnabled then
      return .failed ("Route '" ++ route.id ++ "' is not enabled") (some route)
    else if route.mappings.isEmpty then
      return .failed ("Route '" ++ route.id ++ "' has no integration mappings") (some route)
    else sv.runRoute route r

/-- The result of a request, and the router after it. A crash keeps what was reached. -/
def execute (sv : Services) (path method : String) (r : Request) (router : Router) :
    Result × Router :=
  match (sv.run path method r).runOn router with
  | (.ok result, router) => (result, router)
  | (.error c, router) => (.failed ("Unexpected error: " ++ c.text), router)

end Services

/-- Services over the routes and transforms of a configuration. -/
def Configuration.services (c : Configuration) (handlers : Fields Rule.Handler)
    (transport : List Outbound → Outbound → Reply) : Services where
  settings := c.settings
  routes := fun path method => .found (Route.find? c.routes path method)
  transport
  library := ⟨fun name => .ok (Transform.find? c.transforms name), handlers⟩

end Switchboard
