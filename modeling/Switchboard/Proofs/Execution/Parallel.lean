import Switchboard.Proofs.Aggregation.Failures
import Switchboard.Proofs.Execution.Calm
import Switchboard.Proofs.Execution.Outcome
import Switchboard.Proofs.Execution.Turns

/-! Routes that call all their mappings together: what they make of the successes and the failures,
in whatever order the calls end. -/
namespace Switchboard

namespace Aggregation

end Aggregation

namespace Sample

end Sample

end Switchboard
