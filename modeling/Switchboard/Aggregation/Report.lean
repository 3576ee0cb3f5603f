import Switchboard.Aggregation.Merging
import Switchboard.Calendar.Timestamp
import Switchboard.Json.Text
import Switchboard.Path

/-! Aggregating the answers of integrations into one payload. -/
namespace Switchboard

/-- A registered way to aggregate, which may fail. -/
abbrev Aggregator := List Source → Except String Json

namespace Aggregation

structure Report where
  succeeded : Bool
  data : Json
  sources : List Attribution
  kind : Kind
  total : Nat
  successful : Nat
  time : Int

/-- The items without those whose value at a path has the text of an earlier one, or is in `seen`.
Items that have no value there stay. -/
def deduplicateAfter (p : Path) (seen : List String) : List Json → List Json
  | [] => []
  | v :: vs =>
    match Path.get? p v with
    | none => v :: deduplicateAfter p seen vs
    | some w =>
      if w.text ∈ seen then deduplicateAfter p seen vs
      else v :: deduplicateAfter p (w.text :: seen) vs

def deduplicate (items : List Json) (field : String) : List Json :=
  deduplicateAfter (Path.parse field) [] items

/-- The names that the sources themselves have. -/
def ownNames (sources : List Source) : List Attribution :=
  sources.map fun s => s.attribute s.memberNames

/-- The payload of the first success. -/
def firstOf (sources : List Source) : Json × List Attribution :=
  match sources.find? (·.succeeded) with
  | some s => (s.payload, [s.attribute s.memberNames])
  | none => (.null, [])

/-- A registered aggregator; where there is none, or it fails, a shallow merge. -/
def runCustom (aggregators : Fields Aggregator) (name : Option String) (sources : List Source) :
    Json × List Attribution :=
  match name.bind fun k => Fields.get? k aggregators with
  | none => Merge.merge .shallow sources
  | some aggregate =>
    match aggregate sources with
    | .ok data => (data, ownNames sources)
    | .error _ => Merge.merge .shallow sources

/-- The payload before duplicates are dropped. -/
def assemble (a : Aggregation) (aggregators : Fields Aggregator) (sources : List Source) :
    Json × List Attribution :=
  match a.kind with
  | .first => firstOf sources
  | .all => (.arr ((sources.filter (·.succeeded)).map Source.payload), ownNames sources)
  | .merge => a.merge.merge sources
  | .custom => runCustom aggregators a.custom sources

/-- Only arrays have duplicates to drop. -/
def dropDuplicates (field : Option String) (data : Json) : Json :=
  match field, data with
  | some field, .arr items => .arr (deduplicate items field)
  | _, data => data

/-- The aggregated payload. -/
def combine (a : Aggregation) (aggregators : Fields Aggregator) (sources : List Source) : Json :=
  dropDuplicates a.deduplicateBy (a.assemble aggregators sources).1

def report (a : Aggregation) (aggregators : Fields Aggregator) (now : Int) (sources : List Source) :
    Report :=
  let successful := (sources.filter (·.succeeded)).length
  { succeeded := successful ≠ 0
    data := a.combine aggregators sources
    sources := (a.assemble aggregators sources).2
    kind := a.kind
    total := sources.length
    successful
    time := now }

end Aggregation

def Attribution.toJson (a : Attribution) : Json :=
  .ofList [("integration", .str a.name), ("success", .bool a.succeeded),
    ("fields", .arr (a.fields.map .str))]

def Aggregation.Report.toJson (r : Report) : Json :=
  .ofList [("success", .bool r.succeeded), ("data", r.data),
    ("sources", .arr (r.sources.map Attribution.toJson)),
    ("metadata", .ofList [("aggregation_type", .str r.kind.text),
      ("total_sources", .ofNat r.total), ("successful_sources", .ofNat r.successful),
      ("timestamp", .ofMillis r.time)])]

end Switchboard
