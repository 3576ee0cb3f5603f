import Switchboard.Decimal.Numeral
import Switchboard.Json.Basic
import Switchboard.Text.Class

/-! Paths into JSON values. A path is text such as `a.b[0]['c']`; a segment that writes a 64-bit
number is an index, any other a key. -/
namespace Switchboard

inductive Segment where
  | key (k : String)
  | index (i : Nat)
  deriving DecidableEq

abbrev Path := List Segment

/-- The 64-bit number that a text writes, with an optional plus sign. -/
def Segment.indexOf? (s : List Char) : Option Nat :=
  let digits := match s with
    | '+' :: r => r
    | r => r
  (Decimal.natural? digits).filter (· < 0x10000000000000000)

/-- What a text addresses; the empty text addresses nothing. -/
def Segment.ofText (s : List Char) : List Segment :=
  match indexOf? s with
  | some i => [.index i]
  | none => if s = [] then [] else [.key (String.ofList s)]

/-- The segment for the name of a member. -/
def Segment.name : Segment → String
  | .key k => k
  | .index i => toString i

namespace Path

def isQuote (c : Char) : Bool := c == '"' || c == '\''

/-- The segment between two brackets: white space, then quotes, are taken off both ends. -/
def bracketed (s : List Char) : List Segment :=
  let inner := (Text.trim s).dropWhile isQuote
  Segment.ofText (inner.reverse.dropWhile isQuote).reverse

/-- The segments of a text, of which `current` has been read of the segment at hand. A bracket that
is left open ends with the text. -/
def segments (inside : Bool) (current : List Char) : List Char → List Segment
  | [] => if inside then bracketed current else Segment.ofText current
  | c :: s =>
    if inside then
      if c = ']' then bracketed current ++ segments false [] s
      else segments true (current ++ [c]) s
    else if c = '.' then Segment.ofText current ++ segments false [] s
    else if c = '[' then Segment.ofText current ++ segments true [] s
    else segments false (current ++ [c]) s

/-- The text after every leading `$.`. -/
def dropRootDots : List Char → List Char
  | '$' :: '.' :: s => dropRootDots s
  | s => s

/-- Signs of the root in front of a path say nothing. -/
def ofChars (s : List Char) : Path :=
  segments false [] ((dropRootDots (Text.trim s)).dropWhile (· = '$'))

def parse (s : String) : Path := ofChars s.toList

/-- The value that one segment addresses. An index addresses the member of its decimal text in an
object. -/
def step? (v : Json) (s : Segment) : Option Json :=
  match s, v with
  | .key k, .obj members => Fields.get? k members
  | .index i, .arr items => items[i]?
  | .index i, .obj members => Fields.get? (toString i) members
  | _, _ => none

/-- The value at a path. -/
def get? : Path → Json → Option Json
  | [], v => some v
  | s :: p, v => (step? v s).bind (get? p)

@[simp] theorem get?_nil (v : Json) : get? [] v = some v := rfl

theorem get?_append (p q : Path) (v : Json) : get? (p ++ q) v = (get? p v).bind (get? q) := by
  induction p generalizing v with
  | nil => rfl
  | cons s p ih =>
    simp only [List.cons_append, get?, Option.bind_assoc]
    congr 1
    exact funext fun w => ih w

/-- Why a value cannot be written: what stands on the way is not addressed by the segment. -/
inductive WriteError where
  | notAnObject (k : String)
  | notAnArray (i : Nat)
  deriving DecidableEq

def WriteError.message : WriteError → String
  | .notAnObject k => "Cannot set key '" ++ k ++ "' on non-object"
  | .notAnArray i => "Cannot set index " ++ toString i ++ " on non-array"

/-- The empty container that a segment addresses. -/
def container : Segment → Json
  | .key _ => .obj []
  | .index _ => .arr []

/-- Items made up with nulls to at least `n`. -/
def pad (items : List Json) (n : Nat) : List Json :=
  items ++ List.replicate (n - items.length) .null

/-- Write `new` at a path: the document afterwards, and why nothing was written, if so. Null and
what is missing on the way give way to containers for the next segment. -/
def set (new : Json) : Path → Json → Json × Option WriteError
  | [], _ => (new, none)
  | s :: p, doc =>
    match s, if doc.isNull then container s else doc with
    | .key k, .obj members =>
      let (slot, e) := set new p ((Fields.get? k members).getD .null)
      (.obj (Fields.insert k slot members), e)
    | .index i, .arr items =>
      let items := pad items (i + 1)
      let (slot, e) := set new p (items[i]?.getD .null)
      (.arr (items.set i slot), e)
    | .index i, .obj members =>
      let (slot, e) := set new p ((Fields.get? (toString i) members).getD .null)
      (.obj (Fields.insert (toString i) slot members), e)
    | .key k, doc => (doc, some (.notAnObject k))
    | .index i, doc => (doc, some (.notAnArray i))

example : parse " $.a[0]['b.c'].+7" = [.key "a", .index 0, .key "b.c", .index 7] := by
  decide +kernel

end Path
end Switchboard
