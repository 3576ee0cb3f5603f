/-! The configuration that is printed as an example. -/
namespace Switchboard.CommandLine

def exampleLines : List String :=
  [ "# Integration Router Configuration Example",
    "version: \"1\"",
    "",
    "settings:",
    "  # Outbound call timeout (ms); mappings may override",
    "  timeout_ms: 5000",
    "  # Named transform cache lifetime (seconds)",
    "  transform_cache_ttl_secs: 60",
    "  # Integration response cache",
    "  response_cache_ttl_secs: 300",
    "  response_cache_max_entries: 1024",
    "  # Parsed expressions kept in memory",
    "  expression_cache_size: 256",
    "",
    "routes:",
    "  # Registry first, archive only when every primary fails",
    "  - route_id: \"person-lookup\"",
    "    name: \"Person lookup\"",
    "    path: \"/api/people\"",
    "    method: GET",
    "    aggregation_strategy: priority_order",
    "    mappings:",
    "      - mapping_id: \"registry\"",
    "        integration_id: \"national-registry\"",
    "        integration_name: \"National Registry\"",
    "        priority: 1",
    "        base_url: \"https://registry.example.org\"",
    "        endpoint_path: \"/v1/persons\"",
    "        response_transform: \"person-summary\"",
    "        cache_enabled: true",
    "        headers:",
    "          x-api-key: \"change-me\"",
    "      - mapping_id: \"archive\"",
    "        integration_id: \"archive\"",
    "        integration_name: \"Case Archive\"",
    "        priority: 1",
    "        is_fallback: true",
    "        base_url: \"https://archive.example.org\"",
    "        endpoint_path: \"/search\"",
    "        response_transform: \"$.hits.map(h => h.source)\"",
    "",
    "  # Query every source and deep-merge the records",
    "  - route_id: \"case-search\"",
    "    name: \"Case search\"",
    "    path: \"/api/cases/*\"",
    "    method: GET",
    "    aggregation_strategy: merge_results",
    "    fail_on_any_error: false",
    "    aggregation:",
    "      type: merge",
    "      merge_strategy: deep",
    "    mappings:",
    "      - mapping_id: \"north\"",
    "        integration_id: \"north-db\"",
    "        integration_name: \"North\"",
    "        base_url: \"https://north.example.org\"",
    "        endpoint_path: \"/cases\"",
    "      - mapping_id: \"south\"",
    "        integration_id: \"south-db\"",
    "        integration_name: \"South\"",
    "        base_url: \"https://south.example.org\"",
    "        endpoint_path: \"/cases\"",
    "        timeout_ms: 2000",
    "",
    "transforms:",
    "  - name: \"person-summary\"",
    "    transform_type: response",
    "    expression: \"$.data\"",
    "    rules:",
    "      - id: \"name\"",
    "        source_field: \"full_name\"",
    "        target_field: \"person.name\"",
    "        transform_type: format",
    "        config:",
    "          format: \"uppercase\"",
    "      - id: \"born\"",
    "        source_field: \"dob\"",
    "        target_field: \"person.born\"",
    "        transform_type: format",
    "        config:",
    "          format: \"iso_date_only\""]

/-- A line break ends every line, and one more the text. -/
def exampleText : String := String.join (exampleLines.map (· ++ "\n")) ++ "\n"

end Switchboard.CommandLine
