import Switchboard.Json.Record
import Switchboard.Request.Query
import Switchboard.Text.Case

/-! Inbound requests. -/
namespace Switchboard

/-- Header names are in lower case where the request was built here, and as given where it was
read. -/
structure Request where
  method : String
  query : Query := []
  body : Option Json := none
  headers : Fields String := []

namespace Request

def addQuery (r : Request) (s : String) : Request :=
  { r with query := r.query.addAll (Query.pairs s) }

def addParameter (r : Request) (k v : String) : Request := { r with query := r.query.add k v }

def setBody (r : Request) (v : Json) : Request := { r with body := some v }

def setHeader (r : Request) (name value : String) : Request :=
  { r with headers := Fields.insert (Text.lowerString name) value r.headers }

/-- The value of a header, named in any case. -/
def header? (r : Request) (name : String) : Option String :=
  Fields.get? (Text.lowerString name) r.headers

def queryJson (r : Request) : Json :=
  .ofFields (fun vs => .arr (vs.map .str)) r.query

/-- What is told of a request: names and types, no values. -/
structure Shape where
  method : String
  queryKeys : List String
  headerNames : List String
  bodyType : Option String
  bodyKeys : List String
  deriving DecidableEq

def shape (r : Request) : Shape where
  method := Text.upperString r.method
  queryKeys := Fields.keys r.query
  headerNames := Fields.keys r.headers
  bodyType := r.body.map Json.typeName
  bodyKeys :=
    match r.body with
    | some (.obj members) => Fields.keys members
    | _ => []

def Shape.toJson (s : Shape) : Json :=
  .ofList ([("method", .str s.method), ("query_keys", .arr (s.queryKeys.map .str)),
      ("header_names", .arr (s.headerNames.map .str))] ++
    (s.bodyType.map fun t => ("body_type", Json.str t)).toList ++
    if s.bodyKeys = [] then [] else [("body_keys", .arr (s.bodyKeys.map .str))])

def toJson (r : Request) : Json :=
  .ofList [("method", .str r.method), ("query", r.queryJson), ("body", r.body.getD .null),
    ("headers", .ofFields .ofText r.headers)]

open Json in
def ofJson? (f : Format) (v : Json) : Option Request := do
  let r ← f.record? ["method", "query", "body", "headers"] v
  return {
    method := ← required r "method" f.text?
    query := ← given r "query" (fieldsOf? (listOf? f.text?)) []
    body := ← given r "body" (nullable asAny?) none
    headers := ← given r "headers" (fieldsOf? f.text?) [] }

end Request
end Switchboard
