import Switchboard.Calendar.Timestamp
import Switchboard.Configuration.Basic
import Switchboard.Json.Record
import Switchboard.Request.Basic

/-! What an execution leaves: the trail of its calls, its result, and the entry in the log.
Durations are kept where they are given; executions do not measure any. -/
namespace Switchboard

/-- One call of an integration. -/
structure Call where
  integrationId : String
  integrationName : String
  mappingId : String
  priority : Int
  succeeded : Bool
  statusCode : Option Nat := none
  duration : Nat := 0
  error : Option String := none
  fromCache : Bool := false
  data : Option Json := none

namespace Call

/-- The error of a call, with the name of its integration. -/
def errorText? (c : Call) : Option String :=
  c.error.map fun e => c.integrationName ++ " (" ++ c.mappingId ++ "): " ++ e

/-- The errors of calls, in order. -/
def errorTexts (calls : List Call) : List String :=
  (calls.filter fun c => !c.succeeded).filterMap errorText?

/-- The record of a call, its members in the order of this structure. -/
def toJson (c : Call) : Json :=
  .obj ([("integration_id", .str c.integrationId), ("integration_name", .str c.integrationName),
      ("mapping_id", .str c.mappingId), ("priority", .ofInt c.priority),
      ("status", .str (if c.succeeded then "success" else "failure"))] ++
    (c.statusCode.map fun n => ("status_code", Json.ofNat n)).toList ++
    ("duration_ms", .ofNat c.duration) :: (c.error.map fun e => ("error", Json.str e)).toList ++
    ("from_cache", .bool c.fromCache) :: (c.data.map fun v => ("data", v)).toList)

open Json in
def ofJson? (f : Format) (v : Json) : Option Call := do
  let r ← f.record? ["integration_id", "integration_name", "mapping_id", "priority", "status",
    "status_code", "duration_ms", "error", "from_cache", "data"] v
  return {
    integrationId := ← required r "integration_id" f.text?
    integrationName := ← required r "integration_name" f.text?
    mappingId := ← required r "mapping_id" f.text?
    priority := ← required r "priority" asInt32?
    succeeded := ← required r "status" (f.oneOf? [("success", true), ("failure", false)])
    statusCode := ← given r "status_code" (nullable (asNatBelow? 0x10000)) none
    duration := ← required r "duration_ms" asNat64?
    error := ← given r "error" (nullable f.text?) none
    fromCache := ← required r "from_cache" asBool?
    data := ← given r "data" (nullable asAny?) none }

end Call

/-- How an execution ended; partly, if some of its calls failed and that is told. -/
inductive Status where
  | success
  | partly
  | failure
  deriving DecidableEq

def Status.text : Status → String
  | success => "success"
  | partly => "partial"
  | failure => "failure"

/-- The result of an execution; the route is named if one was found. -/
structure Result where
  status : Status
  data : Json
  errors : List String
  route : Option Route := none
  calls : List Call := []

namespace Result

def failed (error : String) (route : Option Route := none) (calls : List Call := []) : Result :=
  ⟨.failure, .null, [error], route, calls⟩

def succeeded (r : Result) : Bool := r.status ≠ .failure

/-- The code that tells the outcome: that of the first failed call of a failed execution, if it has
one. -/
def responseCode (r : Result) : Nat :=
  if r.succeeded then 200 else ((r.calls.find? fun c => !c.succeeded).bind (·.statusCode)).getD 500

/-- The members of a result that tell of its route and its calls. -/
def metadata (r : Result) : Json :=
  .obj ((r.route.map fun t =>
      [("route_id", Json.str t.id), ("route_name", Json.str t.name)]).getD [] ++
    [("duration_ms", .ofNat 0), ("integration_calls", .arr (r.calls.map Call.toJson))] ++
    (r.route.map fun t => ("aggregation_strategy", Json.str t.strategy.text)).toList)

/-- The record of a result; errors are left out where there are none. -/
def toJson (r : Result) : Json :=
  .obj ([("success", .bool r.succeeded), ("status", .str r.status.text), ("data", r.data)] ++
    (if r.errors = [] then [] else [("errors", .arr (r.errors.map .str))]) ++
    [("metadata", r.metadata)])

end Result

/-- What is logged of one execution of a route. -/
structure LogEntry where
  routeId : String
  routeName : String
  request : Request.Shape
  calls : List Call
  status : Status
  responseCode : Nat
  errorMessage : Option String
  time : Int

namespace LogEntry

def ofResult (route : Route) (request : Request) (r : Result) (time : Int) : LogEntry where
  routeId := route.id
  routeName := route.name
  request := request.shape
  calls := r.calls
  status := r.status
  responseCode := r.responseCode
  errorMessage := if r.errors = [] then none else some ("; ".intercalate r.errors)
  time

def toJson (e : LogEntry) : Json :=
  .ofList ([("route_id", .str e.routeId), ("route_name", .str e.routeName),
      ("request", e.request.toJson), ("integration_calls", .arr (e.calls.map Call.toJson)),
      ("status", .str e.status.text), ("response_status_code", .ofNat e.responseCode),
      ("duration_ms", .ofNat 0), ("timestamp", .ofMillis e.time)] ++
    (e.errorMessage.map fun s => ("error_message", Json.str s)).toList)

end LogEntry
end Switchboard
