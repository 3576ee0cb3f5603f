import Switchboard.Json.Text

/-! Reading typed records from JSON values. A file may be written in one of two formats. In YAML a
scalar without quotes may stand for text; in JSON a record may be an array of its fields. -/
namespace Switchboard

inductive Format where
  | json
  | yaml
  deriving DecidableEq

namespace Format

/-- A text, or in YAML any scalar. -/
def text? : Format → Json → Option String
  | _, .str s => some s
  | yaml, .null => some "null"
  | yaml, .bool b => some (Json.text (.bool b))
  | yaml, .num n => some (Json.text (.num n))
  | _, _ => none

/-- The fields given of a record of the named ones. Other names are passed over; a field that is
given twice is refused. -/
def record? (f : Format) (names : List String) : Json → Option (Fields Json)
  | .obj members =>
    let given := members.filter fun m => names.contains m.1
    if (given.map (·.1)).Nodup then some given else none
  | .arr items => if f = json ∧ items.length ≤ names.length then some (names.zip items) else none
  | _ => none

/-- One of named values. In JSON the name may also be that of an empty member. -/
def oneOf? {α : Type} (f : Format) (values : List (String × α)) : Json → Option α
  | .str s => Fields.get? s values
  | .obj [(s, .null)] => if f = json then Fields.get? s values else none
  | _ => none

end Format

namespace Json

/-- A field that has to be given. -/
def required {α : Type} (fields : Fields Json) (k : String) (read : Json → Option α) : Option α :=
  (Fields.get? k fields).bind read

/-- A field that may be left out. -/
def given {α : Type} (fields : Fields Json) (k : String) (read : Json → Option α) (default : α) :
    Option α :=
  match Fields.get? k fields with
  | none => some default
  | some v => read v

/-- Null for nothing. -/
def nullable {α : Type} (read : Json → Option α) : Json → Option (Option α)
  | null => some none
  | v => (read v).map some

def asBool? : Json → Option Bool
  | bool b => some b
  | _ => none

/-- An unsigned integer below a bound. -/
def asNatBelow? (bound : Nat) : Json → Option Nat
  | num n => n.toNat?.filter (· < bound)
  | _ => none

def asNat64? : Json → Option Nat := asNatBelow? 0x10000000000000000

def asInt32? : Json → Option Int
  | num n => n.toInt?.filter fun i => -0x80000000 ≤ i ∧ i < 0x80000000
  | _ => none

def listOf? {α : Type} (read : Json → Option α) : Json → Option (List α)
  | arr items => items.mapM read
  | _ => none

/-- Members of an object; of a repeated name the last one stays. -/
def fieldsOf? {α : Type} (read : Json → Option α) : Json → Option (Fields α)
  | obj members => (members.mapM fun m : String × Json => (read m.2).map (m.1, ·)).map Fields.ofList
  | _ => none

/-- Any value. -/
def asAny? (v : Json) : Option Json := some (normal v)

end Json
end Switchboard
