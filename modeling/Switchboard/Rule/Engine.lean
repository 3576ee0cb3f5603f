import Switchboard.Formula.Template
import Switchboard.Rule.Condition
import Switchboard.Rule.Format

/-! Applying rules. Each rule reads the source record and writes one place of a new record; a rule
without a value writes its default, or nothing. -/
namespace Switchboard.Rule

/-- What a rule makes of the value of its source field. -/
inductive Outcome where
  | value (v : Json)
  | omitted
  | failed (e : Error)
  | crashed (c : Crash)

def Outcome.ofExcept : Except Error Json → Outcome
  | .ok v => value v
  | .error e => failed e

/-- The value of a formula. Text that is not arithmetic once filled in leaves the value alone. -/
def calculate (formula : String) (v record : Json) : Except Error Json :=
  let s := Formula.substitute formula v record
  if !Formula.isArithmetic s then .ok v
  else
    match Formula.evaluate s with
    | .ok x => .ok (.ofFloat x)
    | .error e => .error (.calculation e)

/-- What a rule makes of a value. Where its settings name nothing to do, the value stays. -/
def apply (handlers : Fields Handler) (r : Rule) (v record : Json) : Outcome :=
  match r.kind with
  | .direct => .value v
  | .format => .ofExcept ((r.settings.format.map fun f => applyFormat f v).getD (.ok v))
  | .lookup =>
    .value ((r.settings.lookup.bind fun table => Fields.get? v.plainText table).getD v)
  | .calculate =>
    .ofExcept ((r.settings.expression.map fun f => calculate f v record).getD (.ok v))
  | .conditional =>
    match r.settings.condition with
    | some c => if c.holds record then .value v else .omitted
    | none => .value v
  | .custom =>
    match r.settings.handler.bind fun name => Fields.get? name handlers with
    | none => .value v
    | some handler =>
      match handler v record with
      | .ok w => .value w
      | .error (.refused text) => .failed (.handler text)
      | .error (.crashed c) => .crashed c

/-- What a rule writes, if anything. -/
def result (handlers : Fields Handler) (record : Json) (r : Rule) : Except Crash (Option Json) :=
  match Path.get? (Path.parse r.source) record with
  | none => .ok r.settings.default
  | some v =>
    match apply handlers r v record with
    | .value w => .ok (some w)
    | .omitted => .ok none
    | .failed _ => .ok r.settings.default
    | .crashed c => .error c

/-- The target after one rule; a value that its place refuses is dropped. -/
def step (handlers : Fields Handler) (record target : Json) (r : Rule) : Except Crash Json :=
  (result handlers record r).map fun
    | some v => (Path.set v (Path.parse r.target) target).1
    | none => target

/-- The record that rules build, in order, from the empty one. -/
def applyAll (handlers : Fields Handler) (rules : List Rule) (record : Json) : Except Crash Json :=
  rules.foldlM (step handlers record) (.obj [])

end Switchboard.Rule
