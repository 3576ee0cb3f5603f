import Switchboard.Fields
import Switchboard.Text.Percent

/-! Query strings. A key may have several values, which stay in order. -/
namespace Switchboard

/-- The values of each key. -/
abbrev Query := Fields (List String)

namespace Query

def add (q : Query) (k v : String) : Query :=
  Fields.insert k ((Fields.get? k q).getD [] ++ [v]) q

/-- The parts of a text between separators. -/
def splitAt (sep : Char) : List Char → List (List Char)
  | [] => [[]]
  | c :: s =>
    match splitAt sep s with
    | [] => [[c]]
    | part :: parts => if c = sep then [] :: part :: parts else (c :: part) :: parts

/-- The key and the value of a part, which the first equals sign separates. -/
def pair? (part : List Char) : Option (String × String) :=
  let value := (part.dropWhile (· ≠ '=')).drop 1
  if part = [] then none
  else
    some (String.ofList (Text.percentDecode (part.takeWhile (· ≠ '='))),
      String.ofList (Text.percentDecode value))

/-- What a query string gives, in its order; question marks in front say nothing. -/
def pairs (s : String) : List (String × String) :=
  (splitAt '&' (s.toList.dropWhile (· = '?'))).filterMap pair?

def addAll (q : Query) (pairs : List (String × String)) : Query :=
  pairs.foldl (fun q p => q.add p.1 p.2) q

def parse (s : String) : Query := addAll [] (pairs s)

def encodePair (k v : String) : List Char :=
  Text.percentEncode k.toList ++ '=' :: Text.percentEncode v.toList

/-- The query string, its keys in order. -/
def encode (q : Query) : String :=
  String.ofList <| ['&'].intercalate <|
    q.flatMap fun (k, vs) => vs.map fun v => encodePair k v

end Query
end Switchboard
