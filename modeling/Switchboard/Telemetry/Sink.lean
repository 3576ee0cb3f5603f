import Switchboard.Crash

/-! Sinks that reports go to. A sink may take a report, refuse it or crash, and may decide by all
that it has been offered before. -/
namespace Switchboard.Telemetry

inductive Delivery where
  | accepted
  | refused (reason : String)
  | crashed (c : Crash)
  deriving DecidableEq

/-- All reports offered so far, with what became of them. -/
abbrev Journal (α : Type) := List (α × Delivery)

abbrev Sink (α : Type) := Journal α → α → Delivery

namespace Journal
variable {α : Type}

def offered (j : Journal α) : List α := j.map (·.1)

def accepted (j : Journal α) : List α := (j.filter (·.2 = .accepted)).map (·.1)

end Journal

/-- Offer a report. A crash of the sink is one of the step. -/
def Sink.write {α : Type} (sink : Sink α) (a : α) : Effect (Journal α) Unit :=
  Effect.ofRun fun j =>
    let d := sink j a
    (match d with
      | .crashed c => .error c
      | _ => .ok (), j ++ [(a, d)])

end Switchboard.Telemetry
