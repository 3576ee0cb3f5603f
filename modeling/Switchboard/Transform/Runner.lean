import Switchboard.Configuration.Check
import Switchboard.Expiring
import Switchboard.Expression.Cache
import Switchboard.Rule.Engine
import Switchboard.Store

/-! Running transforms. Nothing that is wrong with a transform stops an execution: one that is
unknown, disabled, meant for the other phase or without a value leaves the data as it is. -/
namespace Switchboard.Transform

/-- What is remembered between runs: look-ups, those without success included, and parsed
expressions. -/
structure Memory where
  found : Expiring (Option Transform)
  parsed : Expression.Cache
  lookups : Nat

/-- How many look-ups are remembered at most. -/
def maxFound : Nat := 512

def Memory.empty (s : Settings) : Memory :=
  ⟨.empty (s.transformSeconds * 1000) maxFound, .empty s.maxExpressions, 0⟩

/-- What transforms are run with. -/
structure Library where
  find : String → Except StoreError (Option Transform)
  handlers : Fields Rule.Handler

/-- The value of an expression, null where it is undefined, and nothing where it fails. -/
def express (s : String) (data : Json) : Effect Memory (Option Json) := do
  let m ← get
  let (r, parsed) := m.parsed.evaluate s data
  set { m with parsed }
  match r with
  | .ok v => return some (v.getD .null)
  | .error _ => return none

def runInline (s : String) (data : Json) : Effect Memory Json := do
  return (← express s data).getD data

/-- The expression first, then the rules on its value. -/
def run (lib : Library) (t : Transform) (data : Json) : Effect Memory Json := do
  let shaped ← match t.expression with
    | some s => express s data
    | none => pure (some data)
  match shaped with
  | none => return data
  | some v =>
    if t.rules.isEmpty then return v else Effect.ofExcept (Rule.applyAll lib.handlers t.rules v)

/-- The transform of a name. -/
def resolve (lib : Library) (now : Int) (name : String) : Effect Memory (Option Transform) := do
  let m ← get
  match m.found.get? now name with
  | some t => return t
  | none =>
    match lib.find name with
    | .ok t =>
      set { m with found := m.found.insert now name t, lookups := m.lookups + 1 }
      return t
    | .error _ =>
      set { m with lookups := m.lookups + 1 }
      return none

/-- The data that a reference makes in a phase. -/
def apply (lib : Library) (now : Int) (reference : String) (phase : Phase) (data : Json) :
    Effect Memory Json := do
  if isInline reference then runInline reference data
  else
    match ← resolve lib now reference with
    | none => return data
    | some t => if t.phase.allows phase then run lib t data else return data

end Switchboard.Transform
