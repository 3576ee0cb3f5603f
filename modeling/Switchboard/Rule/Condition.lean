import Switchboard.Json.Text
import Switchboard.Path
import Switchboard.Rule.Basic

/-! Conditions on a record. A field that is null counts as missing. -/
namespace Switchboard.Rule

/-- Numbers are equal as floats, everything else as JSON; a missing value equals null and none. -/
def valuesEqual : Option Json → Option Json → Bool
  | some (.num a), some (.num b) => a.toFloat == b.toFloat
  | some a, some b => a.same b
  | none, none => true
  | none, some .null => true
  | _, _ => false

/-- A number, or the number that a text writes. -/
def numberOf? : Json → Option Float
  | .num n => some n.toFloat
  | .str s => Decimal.float? (Text.trim s.toList)
  | _ => none

/-- Both numbers stand in the relation. -/
def compareNumbers (rel : Float → Float → Bool) (a b : Option Json) : Bool :=
  match a.bind numberOf?, b.bind numberOf? with
  | some x, some y => rel x y
  | _, _ => false

/-- One text occurs in another. -/
def occursIn (needle : List Char) : List Char → Bool
  | [] => needle.isEmpty
  | c :: s => needle.isPrefixOf (c :: s) || occursIn needle s

/-- An array contains an item, a text a text, and any other value a part of its JSON text. -/
def containsValue : Option Json → Option Json → Bool
  | some (.arr items), some v => items.any fun item => valuesEqual (some item) (some v)
  | some actual, some v => occursIn v.plainText.toList actual.plainText.toList
  | _, _ => false

def Condition.holds (c : Condition) (record : Json) : Bool :=
  let actual := (Path.get? (Path.parse c.field) record).filter fun v => !v.isNull
  match c.operator with
  | .exists => actual.isSome
  | .equals => valuesEqual actual c.value
  | .notEquals => !valuesEqual actual c.value
  | .greaterThan => compareNumbers (fun x y => y < x) actual c.value
  | .lessThan => compareNumbers (fun x y => x < y) actual c.value
  | .contains => containsValue actual c.value

end Switchboard.Rule
