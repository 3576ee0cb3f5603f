import Switchboard.Configuration.Basic

/-! Configurations as JSON values. Every field is written; what is not set is null. -/
namespace Switchboard

open Json

namespace Rule

def Condition.toJson (c : Condition) : Json :=
  .ofList [("field", .str c.field), ("operator", .str c.operator.text),
    ("value", c.value.getD null)]

def Settings.toJson (s : Settings) : Json :=
  .ofList [("format", ofOption ofText s.format),
    ("lookup", ofOption obj s.lookup),
    ("expression", ofOption ofText s.expression),
    ("condition", ofOption Condition.toJson s.condition),
    ("default", s.default.getD null),
    ("handler", ofOption ofText s.handler)]

end Rule

def Rule.toJson (r : Rule) : Json :=
  .ofList [("id", .str r.id), ("source_field", .str r.source), ("target_field", .str r.target),
    ("transform_type", .str r.kind.text), ("config", r.settings.toJson)]

def Transform.toJson (t : Transform) : Json :=
  .ofList [("name", .str t.name), ("transform_type", .str t.phase.text),
    ("enabled", .bool t.isEnabled), ("expression", ofOption ofText t.expression),
    ("rules", .arr (t.rules.map Rule.toJson))]

def Aggregation.toJson (a : Aggregation) : Json :=
  .ofList [("type", .str a.kind.text), ("merge_strategy", .str a.merge.text),
    ("deduplication_field", ofOption ofText a.deduplicateBy),
    ("custom_aggregator", ofOption ofText a.custom)]

def Mapping.toJson (m : Mapping) : Json :=
  .ofList [("mapping_id", .str m.id), ("integration_id", .str m.integrationId),
    ("integration_name", .str m.integrationName), ("priority", ofInt m.priority),
    ("base_url", .str m.baseUrl), ("endpoint_path", .str m.path),
    ("endpoint_method", .str m.method), ("request_transform", ofOption ofText m.requestTransform),
    ("response_transform", ofOption ofText m.responseTransform),
    ("cache_enabled", .bool m.isCached), ("is_fallback", .bool m.isFallback),
    ("headers", ofFields ofText m.headers), ("timeout_ms", ofOption ofNat m.timeoutMillis)]

def Route.toJson (r : Route) : Json :=
  .ofList [("route_id", .str r.id), ("name", .str r.name), ("path", .str r.path),
    ("method", .str r.method), ("aggregation_strategy", .str r.strategy.text),
    ("fail_on_any_error", .bool r.failsOnAnyError), ("enabled", .bool r.isEnabled),
    ("aggregation", ofOption Aggregation.toJson r.aggregation),
    ("mappings", .arr (r.mappings.map Mapping.toJson))]

def Settings.toJson (s : Settings) : Json :=
  .ofList [("timeout_ms", ofNat s.timeoutMillis),
    ("transform_cache_ttl_secs", ofNat s.transformSeconds),
    ("response_cache_ttl_secs", ofNat s.responseSeconds),
    ("response_cache_max_entries", ofNat s.maxResponses),
    ("expression_cache_size", ofNat s.maxExpressions)]

def Configuration.toJson (c : Configuration) : Json :=
  .ofList [("version", .str c.version), ("settings", c.settings.toJson),
    ("routes", .arr (c.routes.map Route.toJson)),
    ("transforms", .arr (c.transforms.map Transform.toJson))]

end Switchboard
