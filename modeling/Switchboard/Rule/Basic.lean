import Switchboard.Crash
import Switchboard.Formula.Arithmetic
import Switchboard.Json.Basic

/-! Rules that build a record field by field from another one. -/
namespace Switchboard

namespace Rule

inductive Comparison where
  | equals
  | notEquals
  | greaterThan
  | lessThan
  | contains
  | exists
  deriving DecidableEq

def Comparison.text : Comparison → String
  | equals => "equals"
  | notEquals => "not_equals"
  | greaterThan => "greater_than"
  | lessThan => "less_than"
  | contains => "contains"
  | .exists => "exists"

/-- A test of one field of the record. -/
structure Condition where
  field : String
  operator : Comparison
  value : Option Json

inductive Kind where
  | direct
  | format
  | lookup
  | calculate
  | conditional
  | custom
  deriving DecidableEq

def Kind.text : Kind → String
  | direct => "direct"
  | format => "format"
  | lookup => "lookup"
  | calculate => "calculate"
  | conditional => "conditional"
  | custom => "custom"

structure Settings where
  format : Option String := none
  lookup : Option (Fields Json) := none
  expression : Option String := none
  condition : Option Condition := none
  default : Option Json := none
  handler : Option String := none

/-- Why a rule has no value. -/
inductive Error where
  | invalidDate (text : String)
  | invalidNumber (text : String)
  | calculation (e : Formula.Error)
  | handler (text : String)

def Error.message : Error → String
  | invalidDate text => "Invalid date: " ++ text
  | invalidNumber text => "Cannot convert '" ++ text ++ "' to a number"
  | calculation e => "Calculation failed: " ++ e.message
  | handler text => "Custom handler failed: " ++ text

/-- What a registered handler may do instead of giving a value. -/
inductive Refusal where
  | refused (text : String)
  | crashed (c : Crash)

/-- A registered handler: from the value at hand and the whole record. -/
abbrev Handler := Json → Json → Except Refusal Json

end Rule

structure Rule where
  id : String
  source : String
  target : String
  kind : Rule.Kind := .direct
  settings : Rule.Settings := {}

end Switchboard
