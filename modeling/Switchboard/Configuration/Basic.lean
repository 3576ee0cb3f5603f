import Switchboard.Rule.Basic

/-! What a router is set up with: routes, the integrations bound to them, and named transforms. -/
namespace Switchboard

/-- How the calls of a route make one result. -/
inductive Strategy where
  | firstSuccess
  | priorityOrder
  | mergeResults
  | allParallel
  | chain
  deriving DecidableEq

def Strategy.text : Strategy → String
  | firstSuccess => "first_success"
  | priorityOrder => "priority_order"
  | mergeResults => "merge_results"
  | allParallel => "all_parallel"
  | chain => "chain"

/-- The sides of a call that a transform is for. -/
inductive Phase where
  | request
  | response
  | both
  deriving DecidableEq

def Phase.text : Phase → String
  | request => "request"
  | response => "response"
  | both => "both"

/-- A transform for both sides may run on either. -/
def Phase.allows (declared phase : Phase) : Bool := declared == both || declared == phase

namespace Aggregation

inductive Kind where
  | first
  | all
  | merge
  | custom
  deriving DecidableEq

def Kind.text : Kind → String
  | first => "first"
  | all => "all"
  | merge => "merge"
  | custom => "custom"

inductive Merge where
  | shallow
  | deep
  | array
  deriving DecidableEq

def Merge.text : Merge → String
  | shallow => "shallow"
  | deep => "deep"
  | array => "array"

end Aggregation

/-- How payloads become one. -/
structure Aggregation where
  kind : Aggregation.Kind := .merge
  merge : Aggregation.Merge := .shallow
  deduplicateBy : Option String := none
  custom : Option String := none

/-- One integration's endpoint, bound to a route. -/
structure Mapping where
  id : String
  integrationId : String
  integrationName : String
  priority : Int := 0
  baseUrl : String
  path : String := ""
  method : String := "GET"
  requestTransform : Option String := none
  responseTransform : Option String := none
  isCached : Bool := false
  isFallback : Bool := false
  headers : Fields String := []
  timeoutMillis : Option Nat := none

/-- A route; its path may be a pattern. -/
structure Route where
  id : String
  name : String
  path : String
  method : String := "GET"
  strategy : Strategy := .firstSuccess
  failsOnAnyError : Bool := false
  isEnabled : Bool := true
  aggregation : Option Aggregation := none
  mappings : List Mapping := []

/-- A named transform: an expression, then rules on its value. -/
structure Transform where
  name : String
  phase : Phase := .both
  isEnabled : Bool := true
  expression : Option String := none
  rules : List Rule := []

/-- Limits that hold for the whole router. -/
structure Settings where
  timeoutMillis : Nat := 5000
  transformSeconds : Nat := 60
  responseSeconds : Nat := 300
  maxResponses : Nat := 1024
  maxExpressions : Nat := 256

structure Configuration where
  version : String := "1"
  settings : Settings := {}
  routes : List Route := []
  transforms : List Transform := []

end Switchboard
