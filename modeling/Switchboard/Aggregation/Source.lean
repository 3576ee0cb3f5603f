import Switchboard.Configuration.Basic

/-! What integrations answered, and which fields of a combined payload came from which of them. -/
namespace Switchboard

/-- The answer of one integration. -/
structure Source where
  id : String
  name : String
  succeeded : Bool
  data : Option Json
  error : Option String

namespace Source

def payload (s : Source) : Json := s.data.getD .null

/-- The members of the payload, if the integration succeeded with an object. -/
def members? (s : Source) : Option (Fields Json) :=
  match s.succeeded, s.payload with
  | true, .obj members => some members
  | _, _ => none

/-- The names of those members. -/
def memberNames (s : Source) : List String := (s.members?.map Fields.keys).getD []

end Source

/-- The fields that one integration gave. -/
structure Attribution where
  name : String
  succeeded : Bool
  fields : List String
  deriving DecidableEq

def Source.attribute (s : Source) (fields : List String) : Attribution :=
  ⟨s.name, s.succeeded, fields⟩

end Switchboard
