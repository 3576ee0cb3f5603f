import Switchboard.Proofs.Execution.Calm
import Switchboard.Proofs.Execution.Linked
import Switchboard.Proofs.Execution.Outcome
import Switchboard.Proofs.Execution.Reports
import Switchboard.Proofs.Execution.Uncached

/-! Chains: each call has for its body what the one before it handed on. A chain of two lists of
mappings is the chain of the first and then that of the second. -/
namespace Switchboard

namespace Strategy
variable {σ : Type}

/-- What a chain hands on: what its last call does, and the body itself where there is none. -/
def handed (body : Option Json) (calls : List Call) : Option Json :=
  (calls.getLast?.map Call.passed).getD body

@[simp] theorem handed_nil (body : Option Json) : handed body [] = body := rfl

@[simp] theorem handed_cons (body : Option Json) (c : Call) (calls : List Call) :
    handed body (c :: calls) = handed c.passed calls := by
  unfold handed
  rw [List.getLast?_cons]
  cases calls.getLast? <;> rfl

end Strategy

namespace Services
variable {sv : Services}

end Services

namespace Services
variable {sv : Services} {route : Route} {r : Request} {s t : Router} {result : Result}

end Services

namespace Sample

/-- A chain of three mappings. -/
def chain : Route where
  id := "c"
  name := "c"
  path := "/c"
  strategy := .chain
  mappings := [mapping "a" false false, mapping "b" false false, mapping "c" false false]

end Sample

end Switchboard
