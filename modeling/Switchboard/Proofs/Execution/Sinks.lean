import Switchboard.Proofs.Execution.Accounting
import Switchboard.Proofs.Execution.Reports

/-! Sinks have no influence. Whatever becomes of the reports that a run offers, taken, refused or
met with a crash, its results, its requests and what it keeps are the same after every step. -/
namespace Switchboard
open Effect

namespace Services
variable (sv : Services) (metrics : Telemetry.Sink Telemetry.Update)
  (log : Telemetry.Sink LogEntry)

/-- An entry in the log leaves a router that differs in its reports alone. -/
theorem logResult_goAlike (route : Route) (r : Request) (result : Result) :
    GoAlike (sv.logResult route r result) ((sv.withSinks metrics log).logResult route r result) :=
  fun _ _ h _ => ⟨rfl, h.now, h.responses, h.transforms, h.moments, h.sent⟩

theorem runRoute_goAlike (route : Route) (r : Request) :
    GoAlike (sv.runRoute route r) ((sv.withSinks metrics log).runRoute route r) := by
  unfold runRoute
  refine (sv.trail_goAlike metrics log route r).bind fun calls => ?_
  exact (sv.logResult_goAlike metrics log route r _).bind fun _ => .pure _

theorem run_goAlike (path method : String) (r : Request) :
    GoAlike (sv.run path method r) ((sv.withSinks metrics log).run path method r) := by
  have hroutes : (sv.withSinks metrics log).routes = sv.routes := rfl
  unfold run
  rw [hroutes]
  rcases sv.routes path method with (_ | route) | e | c
  · exact .pure _
  · dsimp only
    split
    · exact .pure _
    · split
      · exact .pure _
      · exact sv.runRoute_goAlike metrics log route r
  · exact .pure _
  · exact fun _ _ h _ => ⟨rfl, h⟩

/-- A request has the same result, and leaves routers that are alike; that holds too where it
crashes on the way. -/
theorem execute_alike (path method : String) (r : Request) {s t : Router} (h : s.Alike t) :
    (sv.execute path method r s).1 = ((sv.withSinks metrics log).execute path method r t).1 ∧
      (sv.execute path method r s).2.Alike
        ((sv.withSinks metrics log).execute path method r t).2 := by
  obtain ⟨hagree, hend⟩ := sv.run_goAlike metrics log path method r s t h trivial
  have hsame := hagree.eq
  unfold execute
  rcases hx : (sv.run path method r).runOn s with ⟨x, u⟩
  rcases hy : ((sv.withSinks metrics log).run path method r).runOn t with ⟨y, v⟩
  rw [hx, hy] at hsame hend
  obtain rfl : x = y := hsame
  cases x with
  | error c => exact ⟨rfl, hend⟩
  | ok result => exact ⟨rfl, hend⟩

theorem next_alike (step : Step) {s t : Router} (h : s.Alike t) :
    (sv.next s step).Alike ((sv.withSinks metrics log).next t step) := by
  cases step with
  | clock now => exact ⟨rfl, h.responses, h.transforms, h.moments, h.sent⟩
  | request path method r => exact (sv.execute_alike metrics log path method r h).2

theorem results_of_alike (steps : List Step) {s t : Router} (h : s.Alike t) :
    sv.results steps s = (sv.withSinks metrics log).results steps t := by
  induction steps generalizing s t with
  | nil => rfl
  | cons step steps ih =>
    have hnext := sv.next_alike metrics log step h
    cases step with
    | clock now => exact ih hnext
    | request path method r =>
      exact congrArg₂ List.cons (sv.execute_alike metrics log path method r h).1 (ih hnext)

/-- The routers of a run, the first one and the one after each step. -/
def routers (sv : Services) (steps : List Step) (s : Router) : List Router := steps.scanl sv.next s

theorem routers_alike (steps : List Step) {s t : Router} (h : s.Alike t) :
    List.Forall₂ Router.Alike (sv.routers steps s)
      ((sv.withSinks metrics log).routers steps t) := by
  unfold routers
  induction steps generalizing s t with
  | nil => exact .cons h .nil
  | cons step steps ih =>
    rw [List.scanl_cons, List.scanl_cons]
    exact .cons h (ih (sv.next_alike metrics log step h))

end Services

/-- Two runs of the same services with any sinks return the same results, and their routers have
sent the same requests and keep the same answers, transforms and expressions after every step. A
sink decides by all that it has been offered; as a run offers its reports in a fixed order, every
series of deliveries is that of some sink. -/
theorem run_withSinks (sv : Services) (metrics metrics' : Telemetry.Sink Telemetry.Update)
    (log log' : Telemetry.Sink LogEntry) (steps : List Step) (s : Router) :
    (sv.withSinks metrics log).results steps s = (sv.withSinks metrics' log').results steps s ∧
      List.Forall₂ Router.Alike ((sv.withSinks metrics log).routers steps s)
        ((sv.withSinks metrics' log').routers steps s) :=
  ⟨(sv.withSinks metrics log).results_of_alike metrics' log' steps (.refl s),
    (sv.withSinks metrics log).routers_alike metrics' log' steps (.refl s)⟩

end Switchboard
