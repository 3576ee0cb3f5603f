import Switchboard.Fields
import Switchboard.Json.Basic

/-! Counts of the calls of each mapping. Counts are words of 64 bits and wrap. -/
namespace Switchboard.Telemetry

/-- What is reported of one call. -/
structure Update where
  mappingId : String
  integrationId : String
  succeeded : Bool
  latency : UInt64
  error : Option String
  fromCache : Bool
  deriving DecidableEq

structure Counters where
  calls : UInt64 := 0
  successes : UInt64 := 0
  failures : UInt64 := 0
  cacheHits : UInt64 := 0
  latency : UInt64 := 0
  lastError : Option String := none
  deriving DecidableEq

namespace Counters

/-- One more call; a failure without an error clears the last one. -/
def add (c : Counters) (u : Update) : Counters where
  calls := c.calls + 1
  successes := if u.succeeded then c.successes + 1 else c.successes
  failures := if u.succeeded then c.failures else c.failures + 1
  cacheHits := if u.fromCache then c.cacheHits + 1 else c.cacheHits
  latency := c.latency + u.latency
  lastError := if u.succeeded then c.lastError else u.error

def toJson (c : Counters) : Json :=
  .ofList [("calls", .ofNat c.calls.toNat), ("successes", .ofNat c.successes.toNat),
    ("failures", .ofNat c.failures.toNat), ("cache_hits", .ofNat c.cacheHits.toNat),
    ("total_latency_ms", .ofNat c.latency.toNat), ("last_error", .ofOption .ofText c.lastError)]

end Counters

/-- The counters of every mapping called so far. -/
abbrev Table := Fields Counters

namespace Table

def add (t : Table) (u : Update) : Table :=
  Fields.insert u.mappingId (((Fields.get? u.mappingId t).getD {}).add u) t

def ofList (updates : List Update) : Table := updates.foldl add []

/-- The count of all calls. -/
def total (t : Table) : UInt64 := t.foldl (fun n e => n + e.2.calls) 0

theorem get?_add_self (t : Table) (u : Update) :
    Fields.get? u.mappingId (t.add u) = some (((Fields.get? u.mappingId t).getD {}).add u) :=
  Fields.get?_insert_self _ _ _

theorem get?_add_of_ne (t : Table) {u : Update} {k : String} (h : k ≠ u.mappingId) :
    Fields.get? k (t.add u) = Fields.get? k t := Fields.get?_insert_of_ne h _ _

end Table
end Switchboard.Telemetry
