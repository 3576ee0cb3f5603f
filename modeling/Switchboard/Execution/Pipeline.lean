import Switchboard.Aggregation.Report
import Switchboard.Execution.Key
import Switchboard.Execution.Outbound
import Switchboard.Execution.Reply
import Switchboard.Execution.Result
import Switchboard.Telemetry.Counters
import Switchboard.Telemetry.Sink
import Switchboard.Transform.Runner

/-! One call of an integration. It is begun with the cache, the transform of the request and the
transport, and ended with the reading of the body, the transform of the response and the cache. Other
calls may come between the two, and the clock may move. -/
namespace Switchboard

/-- The answer of a route store. -/
inductive Lookup where
  | found (route : Option Route)
  | failed (e : StoreError)
  | crashed (c : Crash)

/-- What a router works with. The transport may answer by all that it has been sent before, so that
every series of replies is that of some transport. A reply of turn zero is there at once; the others
come after all requests that go out together, by their turns. The clock may move either way before
each moment of the router. -/
structure Services where
  settings : Settings
  routes : String → String → Lookup
  transport : List Outbound → Outbound → Reply
  library : Transform.Library
  aggregators : Fields Aggregator := []
  metrics : Telemetry.Sink Telemetry.Update := fun _ _ => .accepted
  log : Telemetry.Sink LogEntry := fun _ _ => .accepted
  turn : List Outbound → Outbound → Nat := fun _ _ => 0
  drift : Nat → Int := fun _ => 0

/-- What a router remembers, and what it has done: how often it has begun or ended a call, all
requests sent, and all reports. -/
structure Router where
  now : Int
  responses : Expiring Json
  transforms : Transform.Memory
  moments : Nat := 0
  sent : List Outbound := []
  updates : Telemetry.Journal Telemetry.Update := []
  entries : Telemetry.Journal LogEntry := []

def Router.start (s : Settings) : Router where
  now := 0
  responses := .empty (s.responseSeconds * 1000) s.maxResponses
  transforms := .empty s

namespace Mapping

/-- The key under which a mapping keeps its answer to a request, if it keeps any. -/
def key? (m : Mapping) (r : Request) (body : Option Json) : Option String :=
  if m.isCached then some (cacheKey m.id r.method r.queryJson body) else none

/-- The record of a call that gave data. -/
def success (m : Mapping) (code : Option Nat) (fromCache : Bool) (data : Json) : Call where
  integrationId := m.integrationId
  integrationName := m.integrationName
  mappingId := m.id
  priority := m.priority
  succeeded := true
  statusCode := code
  fromCache
  data := some data

def failure (m : Mapping) (e : CallError) : Call where
  integrationId := m.integrationId
  integrationName := m.integrationName
  mappingId := m.id
  priority := m.priority
  succeeded := false
  statusCode := e.code?
  error := some e.message

end Mapping

def Call.update (c : Call) : Telemetry.Update where
  mappingId := c.mappingId
  integrationId := c.integrationId
  succeeded := c.succeeded
  latency := c.duration.toUInt64
  error := c.error
  fromCache := c.fromCache

/-- The call as an answer to aggregate. -/
def Call.source (c : Call) : Source :=
  ⟨c.integrationId, c.integrationName, c.succeeded, c.data, c.error⟩

/-- A value that is not null. -/
def Json.nonNull? (v : Json) : Option Json := if v.isNull then none else some v

/-- A request that is out: for which mapping it was sent, under which key its answer is kept, what
the reply will be, and in which turn it comes. -/
structure Pending where
  mapping : Mapping
  key : Option String
  reply : Reply
  turn : Nat

/-- How far a call has come: it is done, or waits for a reply. -/
inductive Progress (φ : Type) where
  | done (c : Call)
  | waiting (f : φ)

/-- The call that is done. -/
def Progress.call? {φ : Type} : Progress φ → Option Call
  | done c => some c
  | waiting _ => none

namespace Services

/-- A moment begins, and shows where the clock has moved. -/
def tick (sv : Services) : Effect Router Unit :=
  modify fun s => { s with now := s.now + sv.drift s.moments, moments := s.moments + 1 }

/-- The data that a reference makes. -/
def transform (sv : Services) (reference : Option String) (phase : Phase) (data : Json) :
    Effect Router Json :=
  match reference with
  | none => return data
  | some reference => do
    let now := (← get).now
    Effect.within Router.transforms (fun t s => { s with transforms := t })
      (Transform.apply sv.library now reference phase data)

/-- Send a request. The reply is settled with that, but it need not be there yet. -/
def send (sv : Services) (o : Outbound) : Effect Router (Reply × Nat) := do
  let s ← get
  set { s with sent := s.sent ++ [o] }
  return (sv.transport s.sent o, sv.turn s.sent o)

/-- Report a call. What becomes of the report does not matter. -/
def report (sv : Services) (c : Call) : Effect Router Unit :=
  Effect.bestEffort <|
    Effect.within Router.updates (fun j s => { s with updates := j }) (sv.metrics.write c.update)

/-- Keep data, if there is a key for it. -/
def keep (key : Option String) (data : Json) : Effect Router Unit :=
  match key with
  | none => return
  | some k => modify fun s => { s with responses := s.responses.insert s.now k data }

/-- The data kept for a key. -/
def kept? (key : Option String) : Effect Router (Option Json) := do
  let s ← get
  return key.bind (s.responses.get? s.now)

/-- Send what a mapping asks for with a body. Null is sent as no body. -/
def ask (sv : Services) (m : Mapping) (r : Request) (body : Option Json) :
    Effect Router Pending := do
  let shaped ← sv.transform m.requestTransform .request (body.getD .null)
  let (reply, turn) ← sv.send (.ofMapping sv.settings m r shaped.nonNull?)
  return ⟨m, m.key? r body, reply, turn⟩

/-- Begin a call of a mapping with a body: take what is kept, or send a request. -/
def begin (sv : Services) (m : Mapping) (r : Request) (body : Option Json) :
    Effect Router (Progress Pending) := do
  sv.tick
  match ← kept? (m.key? r body) with
  | some data =>
    sv.report (m.success none true data)
    return .done (m.success none true data)
  | none => return .waiting (← sv.ask m r body)

/-- The data of a reply and the code that it came with. -/
def receive (sv : Services) (m : Mapping) (reply : Reply) :
    Effect Router (Except CallError (Nat × Json)) :=
  match reply with
  | .crashed c => throw c
  | .failed e => return .error (.transport e)
  | .response response =>
    match response.data with
    | .error e => return .error e
    | .ok data => return .ok (response.code, ← sv.transform m.responseTransform .response data)

/-- End a call, now that its reply is there. -/
def finish (sv : Services) (p : Pending) : Effect Router Call := do
  sv.tick
  let c ← match ← sv.receive p.mapping p.reply with
    | .error e => pure (p.mapping.failure e)
    | .ok (code, data) =>
      keep p.key data
      pure (p.mapping.success (some code) false data)
  sv.report c
  return c

end Services
end Switchboard
