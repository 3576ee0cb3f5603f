import Switchboard.Digest.Sha256
import Switchboard.Json.Text
import Switchboard.Text.Case
import Switchboard.Text.Percent

/-! Keys under which the answers of integrations are kept. A key is made of the name of the mapping,
the method, the query and the body. An answer may depend on more: on the host, the path and the
transforms of the mapping, whose name need not be its own alone, and on the headers that are passed
on. -/
namespace Switchboard

/-- The bytes that tell one call from another. No body is the same as null. -/
def keyBytes (mappingId method : String) (query : Json) (body : Option Json) : List UInt8 :=
  Text.bytes mappingId.toList ++ 0 :: Text.bytes (Text.upper method.toList) ++
    0 :: Text.bytes (Json.ofList [("body", body.getD .null), ("query", query)]).chars

def cacheKey (mappingId method : String) (query : Json) (body : Option Json) : String :=
  Digest.sha256 (keyBytes mappingId method query body)

end Switchboard
