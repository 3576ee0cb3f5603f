import Switchboard.Aggregation.Source

/-! Merging payloads into one object. A value that stands is never overwritten: what comes first
stays, and a later payload only adds to it. -/
namespace Switchboard.Aggregation

/-- Add the members whose names are new. -/
def addShallow (merged payload : Fields Json) : Fields Json × List String :=
  let fresh := payload.filter fun m => !Fields.has m.1 merged
  (fresh.foldl (fun fs m => Fields.insert m.1 m.2 fs) merged, Fields.keys fresh)

/-- The values gathered under a name. -/
def gathered (merged : Fields Json) (k : String) : List Json :=
  match Fields.get? k merged with
  | some (.arr values) => values
  | _ => []

/-- Append every member to the array of its name. -/
def addToArrays (merged payload : Fields Json) : Fields Json × List String :=
  (payload.foldl (fun fs m => Fields.insert m.1 (.arr (gathered fs m.1 ++ [m.2])) fs) merged,
    Fields.keys payload)

def joinName (path k : String) : String := path ++ "." ++ k

mutual

/-- The places of all values under a place that are no objects, or empty ones. -/
def leaves (path : String) : Json → List String
  | .obj (m :: ms) => leavesOf path (m :: ms)
  | .obj [] => [path]
  | .null => [path]
  | .bool _ => [path]
  | .num _ => [path]
  | .str _ => [path]
  | .arr _ => [path]

def leavesOf (path : String) : List (String × Json) → List String
  | [] => []
  | (k, v) :: ms => leaves (joinName path k) v ++ leavesOf path ms

end

/-- What a value becomes that is no object, beside what stands. -/
def settle (path : String) (standing : Option Json) (v : Json) : Json × List String :=
  match standing with
  | some w => (w, [])
  | none => (v, leaves path v)

mutual

/-- What stands at a place, with a later value merged into it, and the places of the new leaves. -/
def mergeValue (path : String) (standing : Option Json) : Json → Json × List String
  | .obj incoming =>
    match standing with
    | some (.obj members) =>
      let (merged, places) := mergeMembers path members incoming
      (.obj merged, places)
    | standing => settle path standing (.obj incoming)
  | .null => settle path standing .null
  | .bool b => settle path standing (.bool b)
  | .num n => settle path standing (.num n)
  | .str s => settle path standing (.str s)
  | .arr items => settle path standing (.arr items)

/-- Merge members into those at a place; at the empty place names are not preceded by it. -/
def mergeMembers (path : String) (merged : Fields Json) :
    List (String × Json) → Fields Json × List String
  | [] => (merged, [])
  | (k, v) :: ms =>
    let place := if path = "" then k else joinName path k
    let (w, here) := mergeValue place (Fields.get? k merged) v
    let (merged, there) := mergeMembers path (Fields.insert k w merged) ms
    (merged, here ++ there)

end

/-- Add one payload: the merged members, and what is new. -/
def Merge.add (m : Merge) (merged payload : Fields Json) : Fields Json × List String :=
  match m with
  | shallow => addShallow merged payload
  | deep => mergeMembers "" merged payload
  | array => addToArrays merged payload

/-- Merge payloads in order into members. Sources without an object give nothing. -/
def Merge.addAll (m : Merge) (merged : Fields Json) : List Source → Fields Json × List Attribution
  | [] => (merged, [])
  | s :: ss =>
    let (merged, fields) :=
      match s.members? with
      | some payload => m.add merged payload
      | none => (merged, [])
    let (all, attributions) := m.addAll merged ss
    (all, s.attribute fields :: attributions)

def Merge.merge (m : Merge) (sources : List Source) : Json × List Attribution :=
  let (members, attributions) := m.addAll [] sources
  (.obj members, attributions)

end Switchboard.Aggregation
