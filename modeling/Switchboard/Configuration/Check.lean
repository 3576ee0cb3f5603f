import Switchboard.Configuration.Basic
import Switchboard.Expression.Parser
import Switchboard.Text.Class

/-! What a sound configuration satisfies, and the list of everything that is wrong with one. -/
namespace Switchboard

/-- A reference that begins with `$` or a brace is an expression, any other the name of a
transform. -/
def isInline (reference : String) : Bool :=
  match Text.trimLeft reference.toList with
  | c :: _ => c = '$' || c = '\x7b'
  | [] => false

namespace Configuration

inductive Problem where
  | duplicateRoute (id : String)
  | noMappings (route : String)
  | badReference (mapping : String) (e : Expression.ParseError)
  | duplicateTransform (name : String)
  | badExpression (transform : String) (e : Expression.ParseError)

def Problem.message : Problem → String
  | duplicateRoute id => "duplicate route id '" ++ id ++ "'"
  | noMappings route => "route '" ++ route ++ "' has no mappings"
  | badReference mapping e => "mapping '" ++ mapping ++ "' inline expression: " ++ e.message
  | duplicateTransform name => "duplicate transform '" ++ name ++ "'"
  | badExpression transform e => "transform '" ++ transform ++ "': " ++ e.message

/-- Why a text is no expression. -/
def fault? (s : String) : Option Expression.ParseError :=
  match Expression.parse s with
  | .ok _ => none
  | .error e => some e

/-- The references of a mapping, for the request before the response. -/
def references (m : Mapping) : List String :=
  m.requestTransform.toList ++ m.responseTransform.toList

def mappingProblems (m : Mapping) : List Problem :=
  ((references m).filter isInline).filterMap fun r => (fault? r).map (.badReference m.id)

/-- Problems of routes, of which the ids in `seen` come earlier. -/
def routeProblems (seen : List String) : List Route → List Problem
  | [] => []
  | r :: rs =>
    (if r.id ∈ seen then [.duplicateRoute r.id] else []) ++
    (if r.mappings.isEmpty then [.noMappings r.id] else []) ++
    r.mappings.flatMap mappingProblems ++ routeProblems (r.id :: seen) rs

/-- Problems of transforms, of which the names in `seen` come earlier. -/
def transformProblems (seen : List String) : List Transform → List Problem
  | [] => []
  | t :: ts =>
    (if t.name ∈ seen then [.duplicateTransform t.name] else []) ++
    (t.expression.bind fault?).toList.map (.badExpression t.name) ++
    transformProblems (t.name :: seen) ts

/-- Everything that is wrong with a configuration. -/
def problems (c : Configuration) : List Problem :=
  routeProblems [] c.routes ++ transformProblems [] c.transforms

def invalidMessage (ps : List Problem) : String :=
  "Invalid configuration: " ++ "; ".intercalate (ps.map Problem.message)

end Configuration
end Switchboard
