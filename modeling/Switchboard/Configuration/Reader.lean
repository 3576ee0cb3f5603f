import Switchboard.Configuration.Basic
import Switchboard.Json.Record

/-! Reading configurations from JSON values. -/
namespace Switchboard
open Json

namespace Rule

def Comparison.ofJson? (f : Format) : Json → Option Comparison :=
  f.oneOf? ([equals, notEquals, greaterThan, lessThan, contains, .exists].map fun c => (c.text, c))

def Kind.ofJson? (f : Format) : Json → Option Kind :=
  f.oneOf? ([direct, format, lookup, calculate, conditional, custom].map fun k => (k.text, k))

def Condition.ofJson? (f : Format) (v : Json) : Option Condition := do
  let r ← f.record? ["field", "operator", "value"] v
  return {
    field := ← required r "field" f.text?
    operator := ← required r "operator" (Comparison.ofJson? f)
    value := ← given r "value" (nullable asAny?) none }

def Settings.ofJson? (f : Format) (v : Json) : Option Settings := do
  let r ← f.record? ["format", "lookup", "expression", "condition", "default", "handler"] v
  return {
    format := ← given r "format" (nullable f.text?) none
    lookup := ← given r "lookup" (nullable (fieldsOf? asAny?)) none
    expression := ← given r "expression" (nullable f.text?) none
    condition := ← given r "condition" (nullable (Condition.ofJson? f)) none
    default := ← given r "default" (nullable asAny?) none
    handler := ← given r "handler" (nullable f.text?) none }

end Rule

def Rule.ofJson? (f : Format) (v : Json) : Option Rule := do
  let r ← f.record? ["id", "source_field", "target_field", "transform_type", "config"] v
  return {
    id := ← required r "id" f.text?
    source := ← required r "source_field" f.text?
    target := ← required r "target_field" f.text?
    kind := ← given r "transform_type" (Rule.Kind.ofJson? f) .direct
    settings := ← given r "config" (Rule.Settings.ofJson? f) {} }

def Phase.ofJson? (f : Format) : Json → Option Phase :=
  f.oneOf? ([request, response, both].map fun p => (p.text, p))

def Transform.ofJson? (f : Format) (v : Json) : Option Transform := do
  let r ← f.record? ["name", "transform_type", "enabled", "expression", "rules"] v
  return {
    name := ← required r "name" f.text?
    phase := ← given r "transform_type" (Phase.ofJson? f) .both
    isEnabled := ← given r "enabled" asBool? true
    expression := ← given r "expression" (nullable f.text?) none
    rules := ← given r "rules" (listOf? (Rule.ofJson? f)) [] }

def Aggregation.Kind.ofJson? (f : Format) : Json → Option Kind :=
  f.oneOf? ([first, all, merge, custom].map fun k => (k.text, k))

def Aggregation.Merge.ofJson? (f : Format) : Json → Option Merge :=
  f.oneOf? ([shallow, deep, array].map fun m => (m.text, m))

def Aggregation.ofJson? (f : Format) (v : Json) : Option Aggregation := do
  let r ← f.record? ["type", "merge_strategy", "deduplication_field", "custom_aggregator"] v
  return {
    kind := ← given r "type" (Kind.ofJson? f) .merge
    merge := ← given r "merge_strategy" (Merge.ofJson? f) .shallow
    deduplicateBy := ← given r "deduplication_field" (nullable f.text?) none
    custom := ← given r "custom_aggregator" (nullable f.text?) none }

def Mapping.ofJson? (f : Format) (v : Json) : Option Mapping := do
  let r ← f.record? ["mapping_id", "integration_id", "integration_name", "priority", "base_url",
    "endpoint_path", "endpoint_method", "request_transform", "response_transform", "cache_enabled",
    "is_fallback", "headers", "timeout_ms"] v
  return {
    id := ← required r "mapping_id" f.text?
    integrationId := ← required r "integration_id" f.text?
    integrationName := ← required r "integration_name" f.text?
    priority := ← given r "priority" asInt32? 0
    baseUrl := ← required r "base_url" f.text?
    path := ← given r "endpoint_path" f.text? ""
    method := ← given r "endpoint_method" f.text? "GET"
    requestTransform := ← given r "request_transform" (nullable f.text?) none
    responseTransform := ← given r "response_transform" (nullable f.text?) none
    isCached := ← given r "cache_enabled" asBool? false
    isFallback := ← given r "is_fallback" asBool? false
    headers := ← given r "headers" (fieldsOf? f.text?) []
    timeoutMillis := ← given r "timeout_ms" (nullable asNat64?) none }

def Strategy.ofJson? (f : Format) : Json → Option Strategy :=
  f.oneOf? ([firstSuccess, priorityOrder, mergeResults, allParallel, chain].map
    fun s => (s.text, s))

def Route.ofJson? (f : Format) (v : Json) : Option Route := do
  let r ← f.record? ["route_id", "name", "path", "method", "aggregation_strategy",
    "fail_on_any_error", "enabled", "aggregation", "mappings"] v
  return {
    id := ← required r "route_id" f.text?
    name := ← required r "name" f.text?
    path := ← required r "path" f.text?
    method := ← given r "method" f.text? "GET"
    strategy := ← given r "aggregation_strategy" (Strategy.ofJson? f) .firstSuccess
    failsOnAnyError := ← given r "fail_on_any_error" asBool? false
    isEnabled := ← given r "enabled" asBool? true
    aggregation := ← given r "aggregation" (nullable (Aggregation.ofJson? f)) none
    mappings := ← given r "mappings" (listOf? (Mapping.ofJson? f)) [] }

def Settings.ofJson? (f : Format) (v : Json) : Option Settings := do
  let r ← f.record? ["timeout_ms", "transform_cache_ttl_secs", "response_cache_ttl_secs",
    "response_cache_max_entries", "expression_cache_size"] v
  return {
    timeoutMillis := ← given r "timeout_ms" asNat64? 5000
    transformSeconds := ← given r "transform_cache_ttl_secs" asNat64? 60
    responseSeconds := ← given r "response_cache_ttl_secs" asNat64? 300
    maxResponses := ← given r "response_cache_max_entries" asNat64? 1024
    maxExpressions := ← given r "expression_cache_size" asNat64? 256 }

def Configuration.ofJson? (f : Format) (v : Json) : Option Configuration := do
  let r ← f.record? ["version", "settings", "routes", "transforms"] v
  return {
    version := ← given r "version" f.text? "1"
    settings := ← given r "settings" (Settings.ofJson? f) {}
    routes := ← given r "routes" (listOf? (Route.ofJson? f)) []
    transforms := ← given r "transforms" (listOf? (Transform.ofJson? f)) [] }

end Switchboard
