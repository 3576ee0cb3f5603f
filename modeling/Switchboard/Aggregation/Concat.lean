import Switchboard.Aggregation.Source

/-! Putting the answers of integrations one after the other. -/
namespace Switchboard

/-- Where objects keep their list, in the order in which it is looked for. -/
def listNames : List String := ["results", "data", "items"]

namespace Source

def listAt? (members : Fields Json) (k : String) : Option (String × List Json) :=
  match Fields.get? k members with
  | some (.arr items) => some (k, items)
  | _ => none

/-- The list that a payload is or holds, with the name that it is kept under. -/
def list? (s : Source) : Option (String × List Json) :=
  match s.payload with
  | .arr items => some ("results", items)
  | .obj members => listNames.findSome? (listAt? members)
  | _ => none

/-- The list of a payload, which is one item where it has none. -/
def items (s : Source) : List Json := (s.list?.map (·.2)).getD [s.payload]

/-- The payload under the name of its integration. -/
def tagged (s : Source) : Json := .ofList [("source", .str s.name), ("data", s.payload)]

/-- All lists as one, under the name of the first. Where no payload has a list, every payload is an
item under the name of its integration. -/
def concat (sources : List Source) : String × List Json :=
  match sources.findSome? list? with
  | some (k, _) => (k, sources.flatMap items)
  | none => ("results", sources.map tagged)

/-- The combined list, with the names of the integrations and the count of the items. -/
def combine (sources : List Source) : Json :=
  let (k, all) := concat sources
  .ofList [(k, .arr all), ("sources", .arr (sources.map fun s => .str s.name)),
    ("count", .ofNat all.length)]

end Source
end Switchboard
