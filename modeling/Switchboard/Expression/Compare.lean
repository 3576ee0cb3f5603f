import Switchboard.Decimal.Numeral
import Switchboard.Json.Basic
import Switchboard.Text.Class

/-! Comparing values in expressions. A missing value is `none` and is called undefined. -/
namespace Switchboard.Expression

/-- Undefined is not truthy. -/
def truthy (v : Option Json) : Bool := v.any Json.truthy

/-- The order of two numbers, if neither is NaN. -/
def compareFloat (x y : Float) : Option Ordering :=
  if x < y then some .lt else if x == y then some .eq else if y < x then some .gt else none

/-- Texts in the order of their characters. -/
def compareText (s t : String) : Ordering := if s < t then .lt else if s = t then .eq else .gt

/-- The number that a text writes, white space around it ignored. -/
def numeralOf? (s : String) : Option Float := Decimal.float? (Text.trim s.toList)

/-- Numbers are equal as floats, everything else as JSON. -/
def strictEq : Option Json → Option Json → Bool
  | none, none => true
  | some (.num a), some (.num b) => a.toFloat == b.toFloat
  | some a, some b => a.same b
  | _, _ => false

def isNullish (v : Option Json) : Bool := v.all Json.isNull

/-- Null and undefined equal each other and nothing else; a number equals a text that writes it. -/
def looseEq (a b : Option Json) : Bool :=
  if isNullish a || isNullish b then isNullish a && isNullish b
  else
    match a, b with
    | some (.num n), some (.str s) => (numeralOf? s).any fun x => x == n.toFloat
    | some (.str s), some (.num n) => (numeralOf? s).any fun x => x == n.toFloat
    | a, b => strictEq a b

/-- The order of numbers, of texts, and of a number and a text that writes one. -/
def relation : Option Json → Option Json → Option Ordering
  | some (.num m), some (.num n) => compareFloat m.toFloat n.toFloat
  | some (.str s), some (.str t) => some (compareText s t)
  | some (.num n), some (.str s) => (numeralOf? s).bind fun x => compareFloat n.toFloat x
  | some (.str s), some (.num n) => (numeralOf? s).bind fun x => compareFloat x n.toFloat
  | _, _ => none

/-- The place of a type in a sorted array. -/
def rank : Option Json → Nat
  | some (.num _) => 0
  | some (.str _) => 1
  | some (.bool _) => 2
  | some (.arr _) => 3
  | some (.obj _) => 3
  | some .null => 4
  | none => 4

/-- The order of sorted arrays: numbers, texts, booleans, then arrays and objects, all equal, and
last what is null or undefined. -/
def order (a b : Option Json) : Ordering :=
  match a, b with
  | some (.bool x), some (.bool y) => compare x y
  | some (.num _), some (.num _) => (relation a b).getD .eq
  | some (.str _), some (.str _) => (relation a b).getD .eq
  | _, _ => compare (rank a) (rank b)

end Switchboard.Expression
