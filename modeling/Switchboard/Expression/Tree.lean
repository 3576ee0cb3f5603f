import Switchboard.Expression.Token
import Switchboard.Json.Basic

/-! Expressions as trees. -/
namespace Switchboard.Expression

/-- Methods that take no argument. -/
inductive Method where
  | length
  | first
  | last
  | flat
  | reverse
  | sort
  deriving DecidableEq

/-- Methods that apply a lambda to the items of an array. -/
inductive Visit where
  | map
  | filter
  | find
  | sort
  deriving DecidableEq

/-- `root` is the value that an expression is evaluated on, `var` the parameter of a lambda. -/
inductive Expr where
  | literal (v : Json)
  | undefined
  | root
  | var (name : String)
  | property (target : Expr) (name : String)
  | index (target key : Expr)
  | call (target : Expr) (method : Method)
  | visit (target : Expr) (method : Visit) (param : String) (body : Expr)
  | slice (target start : Expr)
  | sliceTo (target start stop : Expr)
  | object (members : List (String × Expr))
  | array (items : List Expr)
  | binary (op : Operator) (lhs rhs : Expr)
  | not (e : Expr)
  deriving Inhabited

def Method.name : Method → String
  | length => "length"
  | first => "first"
  | last => "last"
  | flat => "flat"
  | reverse => "reverse"
  | sort => "sort"

def Visit.name : Visit → String
  | map => "map"
  | filter => "filter"
  | find => "find"
  | sort => "sort"

def Method.ofName? (s : String) : Option Method :=
  if s = "length" then some length
  else if s = "first" then some first
  else if s = "last" then some last
  else if s = "flat" then some flat
  else if s = "reverse" then some reverse
  else if s = "sort" then some sort
  else none

def Visit.ofName? (s : String) : Option Visit :=
  if s = "map" then some map
  else if s = "filter" then some filter
  else if s = "find" then some find
  else if s = "sort" then some sort
  else none

@[simp] theorem Method.ofName?_name (m : Method) : ofName? m.name = some m := by
  cases m <;> rfl

@[simp] theorem Visit.ofName?_name (m : Visit) : ofName? m.name = some m := by
  cases m <;> rfl

end Switchboard.Expression
