import Switchboard.Configuration.Basic
import Switchboard.Request.Basic

/-! Requests to integrations. -/
namespace Switchboard

structure Outbound where
  method : String
  url : String
  headers : Fields String
  body : Option Json
  timeoutMillis : Nat

namespace Outbound

/-- An address without slashes at its end, a path with one in front, and a query. -/
def addressOf (base path query : List Char) : List Char :=
  let base := (base.reverse.dropWhile (· = '/')).reverse
  let address :=
    match path with
    | [] => base
    | '/' :: _ => base ++ path
    | _ => base ++ '/' :: path
  if query = [] then address
  else address ++ (if '?' ∈ address then '&' else '?') :: query

/-- Headers of the inbound request that are meant for this router alone. -/
def ownHeaders : List String := ["host", "content-length", "connection", "transfer-encoding"]

def setAll (headers : Fields String) (entries : List (String × String)) : Fields String :=
  entries.foldl (fun hs e => Fields.insert (Text.lowerString e.1) e.2 hs) headers

/-- Inbound headers, those of the mapping over them, and the type of a body over both. -/
def headersOf (r : Request) (m : Mapping) (hasBody : Bool) : Fields String :=
  let inbound := (setAll [] r.headers).filter fun h => !ownHeaders.contains h.1
  let headers := setAll inbound m.headers
  if hasBody then Fields.insert "content-type" "application/json" headers else headers

def ofMapping (s : Settings) (m : Mapping) (r : Request) (body : Option Json) : Outbound where
  method := Text.upperString m.method
  url := String.ofList (addressOf m.baseUrl.toList m.path.toList r.query.encode.toList)
  headers := headersOf r m body.isSome
  body
  timeoutMillis := m.timeoutMillis.getD s.timeoutMillis

def toJson (o : Outbound) : Json :=
  .ofList ([("method", .str o.method), ("url", .str o.url),
      ("headers", .ofFields .ofText o.headers), ("timeout_ms", .ofNat o.timeoutMillis)] ++
    (o.body.map fun v => ("body", v)).toList)

end Outbound
end Switchboard
