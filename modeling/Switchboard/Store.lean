import Switchboard.Configuration.Basic
import Switchboard.Pattern

/-! Looking up routes and transforms by what a request names. -/
namespace Switchboard

/-- Why a look-up gives no answer. -/
inductive StoreError where
  | unavailable (reason : String)
  | corrupt (key reason : String)

def StoreError.message : StoreError → String
  | unavailable reason => "Store unavailable: " ++ reason
  | corrupt key reason => "Corrupt record '" ++ key ++ "': " ++ reason

/-- Equality of texts, with no difference between upper and lower case of the letters a to z. -/
def sameLetters (s t : String) : Bool := s.toList.map Char.toLower = t.toList.map Char.toLower

/-- A route is bound to a path by its own path, as it stands or as a pattern. -/
def Route.answers (r : Route) (path method : String) : Bool :=
  sameLetters r.method method && (r.path == path || Pattern.matches r.path path)

/-- The first enabled route that answers, else the first disabled one. -/
def Route.find? (routes : List Route) (path method : String) : Option Route :=
  let answering := routes.filter (·.answers path method)
  (answering.find? (·.isEnabled)).or answering.head?

/-- The last transform of a name, if it is enabled. -/
def Transform.find? (transforms : List Transform) (name : String) : Option Transform :=
  (transforms.reverse.find? (·.name == name)).filter (·.isEnabled)

end Switchboard
