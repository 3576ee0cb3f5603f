import Switchboard.Aggregation.Report
import Switchboard.Proofs.Aggregation.Sources

/-! Failed sources beside successful ones: the data that is made of them is that of the successes,
wherever a failure stands. A registered aggregator is given the failures as well and may look at
them; all others pass them over. -/
namespace Switchboard

/-- A failed source, put in or taken out anywhere, leaves what is made of the sources as it is. -/
def IgnoresFailures {α : Type} (f : List Source → α) : Prop :=
  ∀ before s after, s.succeeded = false → f (before ++ s :: after) = f (before ++ after)

namespace IgnoresFailures
variable {α : Type} {f : List Source → α}

theorem comp {β : Type} (h : IgnoresFailures f) (g : α → β) : IgnoresFailures (g ∘ f) :=
  fun before s after hs => congrArg g (h before s after hs)

end IgnoresFailures

namespace Aggregation

/-- The registered aggregator that an aggregation runs. -/
def custom? (a : Aggregation) (aggregators : Fields Aggregator) : Option Aggregator :=
  match a.kind with
  | .custom => a.custom.bind fun k => Fields.get? k aggregators
  | _ => none

end Aggregation
end Switchboard
