import Switchboard.Decimal.Shortest
import Switchboard.Fields

/-! JSON values. An integer and a float are different numbers even when they are equal in size;
members of an object are in the order of their names. -/
namespace Switchboard

/-- Integers fit in 64 bits, signed or unsigned; floats are finite. -/
inductive Number where
  | int (n : Int)
  | float (x : Float)

inductive Json where
  | null
  | bool (b : Bool)
  | num (n : Number)
  | str (s : String)
  | arr (items : List Json)
  | obj (members : List (String × Json))
  deriving Inhabited

namespace Number

/-- Integers are rounded to the nearest float. -/
def toFloat : Number → Float
  | int n => .ofInt n
  | float x => x

/-- Equality of numbers as JSON: of one kind, and equal as numbers of that kind. -/
def same : Number → Number → Bool
  | int m, int n => m == n
  | float x, float y => x == y
  | _, _ => false

/-- The number for a computed value: an integer if it is whole and below 9·10¹⁵, nothing if it is
not finite. -/
def ofFloat? (x : Float) : Option Number :=
  if Decimal.isWhole x && (Decimal.truncate x).natAbs < 9000000000000000 then
    some (int (Decimal.truncate x))
  else if Decimal.isFinite x then some (float x)
  else none

/-- An unsigned integer of 64 bits. -/
def toNat? : Number → Option Nat
  | int n => if 0 ≤ n ∧ n < 0x10000000000000000 then some n.toNat else none
  | float _ => none

/-- A signed integer of 64 bits. -/
def toInt? : Number → Option Int
  | int n => if -0x8000000000000000 ≤ n ∧ n < 0x8000000000000000 then some n else none
  | float _ => none

end Number

namespace Json

def ofNat (n : Nat) : Json := .num (.int n)

/-- A computed value; one that is not finite has no number and is null. -/
def ofFloat (x : Float) : Json := ((Number.ofFloat? x).map num).getD null

/-- The text of characters. -/
def ofChars (s : List Char) : Json := .str (String.ofList s)

/-- An object of the given entries, later ones replacing earlier ones. -/
def ofList (entries : List (String × Json)) : Json := .obj (Fields.ofList entries)

def ofText (s : String) : Json := .str s

def ofInt (n : Int) : Json := .num (.int n)

def ofOption {α : Type} (write : α → Json) : Option α → Json
  | none => null
  | some a => write a

def ofFields {α : Type} (write : α → Json) (fields : Fields α) : Json :=
  ofList (fields.map fun (k, a) => (k, write a))

def typeName : Json → String
  | null => "null"
  | bool _ => "boolean"
  | num _ => "number"
  | str _ => "string"
  | arr _ => "array"
  | obj _ => "object"

def isNull : Json → Bool
  | null => true
  | _ => false

/-- The member of an object. -/
def member? (k : String) : Json → Option Json
  | obj ms => Fields.get? k ms
  | _ => none

def asString? : Json → Option String
  | str s => some s
  | _ => none

/-- Null, false, zero and the empty text are not truthy. -/
def truthy : Json → Bool
  | null => false
  | bool b => b
  | num n => n.toFloat != 0 && n.toFloat == n.toFloat
  | str s => s != ""
  | arr _ => true
  | obj _ => true

mutual

/-- Equality of values, where an integer never equals a float. -/
def same : Json → Json → Bool
  | null, null => true
  | bool a, bool b => a == b
  | num a, num b => a.same b
  | str a, str b => a == b
  | arr a, arr b => sameItems a b
  | obj a, obj b => sameMembers a b
  | _, _ => false

def sameItems : List Json → List Json → Bool
  | [], [] => true
  | a :: as, b :: bs => same a b && sameItems as bs
  | _, _ => false

def sameMembers : List (String × Json) → List (String × Json) → Bool
  | [], [] => true
  | (k, a) :: as, (l, b) :: bs => k == l && same a b && sameMembers as bs
  | _, _ => false

end

mutual

/-- Members of every object put in order; of a repeated name the last value stays. -/
def normal : Json → Json
  | null => null
  | bool b => bool b
  | num n => num n
  | str s => str s
  | arr items => arr (normalItems items)
  | obj members => obj (Fields.ofList (normalMembers members))

def normalItems : List Json → List Json
  | [] => []
  | a :: as => normal a :: normalItems as

def normalMembers : List (String × Json) → List (String × Json)
  | [] => []
  | (k, a) :: as => (k, normal a) :: normalMembers as

end

end Json
end Switchboard
