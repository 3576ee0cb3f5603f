import Switchboard.Aggregation.Concat
import Switchboard.Aggregation.Report
import Switchboard.Execution.Pipeline

/-! Strategies. Each decides which mappings are called in which order, which gives the trail of an
execution, and how the trail makes its outcome. -/
namespace Switchboard

/-- Mappings in the order of their priorities, equal ones in their own order. -/
def byPriority (ms : List Mapping) : List Mapping := ms.mergeSort fun m n => m.priority ≤ n.priority

/-- Primary mappings before fallbacks, each by priority. -/
def priorityPlan (ms : List Mapping) : List Mapping :=
  byPriority (ms.filter fun m => !m.isFallback) ++ byPriority (ms.filter (·.isFallback))

/-- A way to call mappings: how a call is begun with a body, in which turn one that waits is ended,
and how. -/
structure Caller (σ φ : Type) where
  begin : Mapping → Option Json → Effect σ (Progress φ)
  turn : φ → Nat
  finish : φ → Effect σ Call

namespace Caller
variable {σ φ : Type} (k : Caller σ φ)

/-- Call a mapping with a body, and wait for the end. -/
def call (m : Mapping) (body : Option Json) : Effect σ Call := do
  match ← k.begin m body with
  | .done c => return c
  | .waiting f => k.finish f

/-- End a call that waits, if its turn has come. -/
def advance (turn : Nat) : Progress φ → Effect σ (Progress φ)
  | .done c => return .done c
  | .waiting f => do
    if k.turn f ≤ turn then return .done (← k.finish f) else return .waiting f

/-- Begin calls of all mappings. What is answered at once ends before the next one begins. -/
def beginAll (body : Option Json) (ms : List Mapping) : Effect σ (List (Progress φ)) :=
  Effect.each (fun m => do k.advance 0 (← k.begin m body)) ms

/-- Let this many turns pass. -/
def settle : Nat → List (Progress φ) → Effect σ (List (Progress φ))
  | 0, calls => return calls
  | n + 1, calls => do Effect.each (k.advance (n + 1)) (← settle n calls)

/-- The last turn that one of the calls waits for. -/
def lastTurn : List (Progress φ) → Nat
  | [] => 0
  | .done _ :: calls => lastTurn calls
  | .waiting f :: calls => max (k.turn f) (lastTurn calls)

end Caller

namespace Strategy

section Calls
variable {σ φ : Type}

/-- Calls up to the first success. -/
def callUntilSuccess (call : Mapping → Effect σ Call) : List Mapping → Effect σ (List Call)
  | [] => return []
  | m :: ms => do
    let c ← call m
    if c.succeeded then return [c] else return c :: (← callUntilSuccess call ms)

/-- Calls of all mappings at the same time, listed in the order of the mappings. -/
def callAll (k : Caller σ φ) (body : Option Json) (ms : List Mapping) : Effect σ (List Call) := do
  let begun ← k.beginAll body ms
  let ended ← k.settle (k.lastTurn begun) begun
  return ended.filterMap Progress.call?

/-- Calls up to the first failure, each with the data of the one before as its body. -/
def callChain (call : Mapping → Option Json → Effect σ Call) (body : Option Json) :
    List Mapping → Effect σ (List Call)
  | [] => return []
  | m :: ms => do
    let c ← call m body
    if c.succeeded then return c :: (← callChain call (c.data.bind Json.nonNull?) ms)
    else return [c]

/-- The calls that a route makes, given how mappings are called. -/
def trail (k : Caller σ φ) (route : Route) (body : Option Json) : Effect σ (List Call) :=
  match route.strategy with
  | .firstSuccess => callUntilSuccess (k.call · body) route.mappings
  | .priorityOrder => callUntilSuccess (k.call · body) (priorityPlan route.mappings)
  | .mergeResults => callAll k body route.mappings
  | .allParallel => callAll k body route.mappings
  | .chain => callChain k.call body route.mappings

end Calls

/-- The data of the successful call; `late` tells the outcome if calls failed before it. -/
def ofFirst (late : Status) (calls : List Call) : Status × Json :=
  match calls.find? (·.succeeded) with
  | none => (.failure, .null)
  | some c => (if Call.errorTexts calls = [] then .success else late, c.data.getD .null)

/-- All data in one; a failure where nothing succeeded or nothing may fail. -/
def ofAll (strict : Bool) (combine : List Source → Json) (calls : List Call) : Status × Json :=
  let clean := Call.errorTexts calls = []
  if !calls.any (·.succeeded) || (strict && !clean) then (.failure, .null)
  else (if clean then .success else .partly, combine (calls.map Call.source))

/-- The data of the last call, or the body where there is none, if every call succeeded. -/
def ofChain (body : Option Json) (calls : List Call) : Status × Json :=
  if calls.all (·.succeeded) then
    (.success, ((calls.getLast?.map (·.data)).getD body).getD .null)
  else (.failure, .null)

end Strategy

namespace Services

/-- The way to call mappings for a request. -/
def caller (sv : Services) (r : Request) : Caller Router Pending where
  begin m body := sv.begin m r body
  turn := Pending.turn
  finish := sv.finish

/-- Call a mapping for a request with a body, and wait for the end. -/
def call (sv : Services) (m : Mapping) (r : Request) (body : Option Json) : Effect Router Call :=
  (sv.caller r).call m body

/-- The calls that a route makes for a request. -/
def trail (sv : Services) (route : Route) (r : Request) : Effect Router (List Call) :=
  Strategy.trail (sv.caller r) route r.body

/-- The configured aggregation of all answers, else the list of the successful ones. -/
def combine (sv : Services) (route : Route) (sources : List Source) : Json :=
  match route.aggregation with
  | some a => a.combine sv.aggregators sources
  | none => Source.combine (sources.filter (·.succeeded))

/-- What the calls of a route make. -/
def outcome (sv : Services) (route : Route) (r : Request) (calls : List Call) : Status × Json :=
  match route.strategy with
  | .firstSuccess => Strategy.ofFirst .success calls
  | .priorityOrder => Strategy.ofFirst .partly calls
  | .mergeResults => Strategy.ofAll route.failsOnAnyError (sv.combine route) calls
  | .allParallel => Strategy.ofAll route.failsOnAnyError (sv.combine route) calls
  | .chain => Strategy.ofChain r.body calls

end Services
end Switchboard
