import Switchboard.Proofs.Execution.Turns

/-! The histories of the trails of routes. Where mappings are tried one after the other, each call
ends before the next one is begun. Where all are called together, they end in the order of their
turns. -/
namespace Switchboard
namespace Services
open Moment
variable {sv : Services} {r : Request}

/-- A call that is waited for ends before anything else happens. -/
theorem call_tells (sv : Services) (r : Request) (m : Mapping) (body : Option Json) :
    sv.Tells ((sv.noted r).call m body) fun c g => ∃ s, let e : Event := ⟨m, r, body, s⟩
      e.Ends sv c ∧ begins g = [e] ∧ ends sv g = [(e, c)] := by
  refine (sv.begun_tells r m body).bind ?_
  rintro x g ⟨s, hbegins, hends, ⟨c, rfl, hend, -⟩ | ⟨p, rfl, hbegun⟩⟩
  · exact .pure ⟨s, hend, by simp [hbegins], by simp [hends, Slot.doneOf, Slot.done?,
      Progress.call?]⟩
  · refine (sv.finish_tells r _ p).imp ?_
    rintro c _ ⟨u, rfl, hend⟩
    refine ⟨s, .later hbegun hend, ?_, ?_⟩
    · rw [begins_append, hbegins]
      rfl
    · rw [ends_append, hends, ends_ended hend]
      rfl

end Services

/-- Calls of the first mappings of a list, of one at least if there is any, each of which ends before
the next one begins. -/
structure Stepwise (sv : Services) (r : Request) (ms : List Mapping) (ps : List (Event × Call))
    (g : List Moment) : Prop where
  mapping_prefix : ∃ rest, ms = ps.map (·.1.mapping) ++ rest
  some_call : ps = [] → ms = []
  request : ∀ p ∈ ps, p.1.request = r
  outcome : ∀ p ∈ ps, p.1.Ends sv p.2
  begins_eq : Moment.begins g = ps.map (·.1)
  ends_eq : Moment.ends sv g = ps

namespace Stepwise
open Moment
variable {sv : Services} {r : Request} {ms : List Mapping} {ps : List (Event × Call)}
  {g g' : List Moment} {e : Event} {c : Call}

theorem nil (sv : Services) (r : Request) : Stepwise sv r [] [] [] where
  mapping_prefix := ⟨[], rfl⟩
  some_call := fun _ => rfl
  request := List.forall_mem_nil _
  outcome := List.forall_mem_nil _
  begins_eq := rfl
  ends_eq := rfl

/-- The first call is the last one. -/
theorem one (hr : e.request = r) (hend : e.Ends sv c) (hbegins : begins g = [e])
    (hends : ends sv g = [(e, c)]) : Stepwise sv r (e.mapping :: ms) [(e, c)] g where
  mapping_prefix := ⟨ms, rfl⟩
  some_call := nofun
  request := List.forall_mem_singleton.mpr hr
  outcome := List.forall_mem_singleton.mpr hend
  begins_eq := hbegins
  ends_eq := hends

/-- Calls of further mappings follow the first one. -/
theorem cons (h : Stepwise sv r ms ps g') (hr : e.request = r) (hend : e.Ends sv c)
    (hbegins : begins g = [e]) (hends : ends sv g = [(e, c)]) :
    Stepwise sv r (e.mapping :: ms) ((e, c) :: ps) (g ++ g') where
  mapping_prefix := by
    obtain ⟨rest, hms⟩ := h.mapping_prefix
    exact ⟨rest, congrArg (e.mapping :: ·) hms⟩
  some_call := nofun
  request := List.forall_mem_cons.mpr ⟨hr, h.request⟩
  outcome := List.forall_mem_cons.mpr ⟨hend, h.outcome⟩
  begins_eq := by rw [begins_append, hbegins, h.begins_eq, List.map_cons, List.singleton_append]
  ends_eq := by rw [ends_append, hends, h.ends_eq, List.singleton_append]

end Stepwise

namespace Services
variable {sv : Services} {r : Request}

theorem callUntilSuccess_tells (sv : Services) (r : Request) (body : Option Json)
    (ms : List Mapping) :
    sv.Tells (Strategy.callUntilSuccess ((sv.noted r).call · body) ms) fun calls g =>
      ∃ ps, ps.map (·.2) = calls ∧ Stepwise sv r ms ps g := by
  induction ms with
  | nil => exact .pure ⟨[], rfl, .nil sv r⟩
  | cons m ms ih =>
    refine (sv.call_tells r m body).bind ?_
    rintro c g ⟨s, hend, hbegins, hends⟩
    by_cases hc : c.succeeded = true
    · rw [if_pos hc]
      refine .pure ⟨[(⟨m, r, body, s⟩, c)], rfl, ?_⟩
      rw [List.append_nil]
      exact .one rfl hend hbegins hends
    · rw [if_neg hc]
      refine ih.bind ?_
      rintro _ g' ⟨ps, rfl, hps⟩
      refine .pure ⟨(⟨m, r, body, s⟩, c) :: ps, rfl, ?_⟩
      rw [List.append_nil]
      exact hps.cons rfl hend hbegins hends

theorem callChain_tells (sv : Services) (r : Request) (body : Option Json) (ms : List Mapping) :
    sv.Tells (Strategy.callChain (sv.noted r).call body ms) fun calls g =>
      ∃ ps, ps.map (·.2) = calls ∧ Stepwise sv r ms ps g := by
  induction ms generalizing body with
  | nil => exact .pure ⟨[], rfl, .nil sv r⟩
  | cons m ms ih =>
    refine (sv.call_tells r m body).bind ?_
    rintro c g ⟨s, hend, hbegins, hends⟩
    by_cases hc : c.succeeded = true
    · rw [if_pos hc]
      refine (ih _).bind ?_
      rintro _ g' ⟨ps, rfl, hps⟩
      refine .pure ⟨(⟨m, r, body, s⟩, c) :: ps, rfl, ?_⟩
      rw [List.append_nil]
      exact hps.cons rfl hend hbegins hends
    · rw [if_neg hc]
      refine .pure ⟨[(⟨m, r, body, s⟩, c)], rfl, ?_⟩
      rw [List.append_nil]
      exact .one rfl hend hbegins hends

end Services

/-- All mappings of the route are called together. -/
def Route.isParallel (route : Route) : Bool :=
  match route.strategy with
  | .mergeResults => true
  | .allParallel => true
  | _ => false

/-- What a route has done for a request: `ps` are its calls in the order of the trail, and `g` is
what has happened. Calls that were made together have ended in the order of their turns. -/
structure Trailed (sv : Services) (route : Route) (r : Request) (ps : List (Event × Call))
    (g : List Moment) : Prop where
  request : ∀ p ∈ ps, p.1.request = r
  mapping : ∀ p ∈ ps, p.1.mapping ∈ route.mappings
  outcome : ∀ p ∈ ps, p.1.Ends sv p.2
  begins_eq : Moment.begins g = ps.map (·.1)
  ends_eq : route.isParallel = false → Moment.ends sv g = ps
  inTurns : route.isParallel = true → InTurns sv.turnOf ps (Moment.ends sv g)
  some_call : ps = [] → route.mappings = []

namespace Trailed
variable {sv : Services} {route : Route} {r : Request} {ps : List (Event × Call)} {g : List Moment}

/-- Whatever the strategy, the calls of the trail are those that have ended. -/
theorem perm (h : Trailed sv route r ps g) : (Moment.ends sv g).Perm ps := by
  cases hp : route.isParallel with
  | false => rw [h.ends_eq hp]
  | true => exact (h.inTurns hp).perm

theorem isSettled (h : Trailed sv route r ps g) : ∀ c ∈ ps.map (·.2), c.IsSettled := by
  rw [List.forall_mem_map]
  exact fun p hp => (h.outcome p hp).facts.2.1

/-- A strategy that goes step by step goes through the mappings in some order. -/
theorem of_stepwise {ms : List Mapping} (hms : ms.Perm route.mappings)
    (hseq : route.isParallel = false) (h : Stepwise sv r ms ps g) : Trailed sv route r ps g where
  request := h.request
  mapping p hp := by
    obtain ⟨rest, rfl⟩ := h.mapping_prefix
    exact hms.mem_iff.mp (List.mem_append_left _ (List.mem_map_of_mem hp))
  outcome := h.outcome
  begins_eq := h.begins_eq
  ends_eq _ := h.ends_eq
  inTurns hpar := by
    rw [hseq] at hpar
    cases hpar
  some_call hps := by
    rw [h.some_call hps] at hms
    exact hms.nil_eq.symm

theorem of_together (hpar : route.isParallel = true)
    (h : Together sv r r.body route.mappings ps g) : Trailed sv route r ps g where
  request := h.request
  mapping p hp := by
    rw [← h.mapping_eq]
    exact List.mem_map_of_mem (f := fun p : Event × Call => p.1.mapping) hp
  outcome := h.outcome
  begins_eq := h.begins_eq
  ends_eq hseq := by
    rw [hpar] at hseq
    cases hseq
  inTurns _ := h.inTurns
  some_call hps := by
    rw [← h.mapping_eq, hps]
    rfl

end Trailed

namespace Services

/-- Whatever its strategy, a route that comes to its end has made the calls of its trail. -/
theorem trail_tells (sv : Services) (route : Route) (r : Request) :
    sv.Tells (Strategy.trail (sv.noted r) route r.body) fun calls g =>
      ∃ ps, ps.map (·.2) = calls ∧ Trailed sv route r ps g := by
  have hplan := (isPriorityPlan_priorityPlan route.mappings).perm
  unfold Strategy.trail
  cases hs : route.strategy with
  | firstSuccess =>
    refine (sv.callUntilSuccess_tells r r.body _).imp fun calls g ⟨ps, hps, hsteps⟩ => ?_
    exact ⟨ps, hps, .of_stepwise (.refl _) (by simp [Route.isParallel, hs]) hsteps⟩
  | priorityOrder =>
    refine (sv.callUntilSuccess_tells r r.body _).imp fun calls g ⟨ps, hps, hsteps⟩ => ?_
    exact ⟨ps, hps, .of_stepwise hplan (by simp [Route.isParallel, hs]) hsteps⟩
  | mergeResults =>
    refine (sv.callAll_tells r r.body _).imp fun calls g ⟨ps, hps, htogether⟩ => ?_
    exact ⟨ps, hps, .of_together (by simp [Route.isParallel, hs]) htogether⟩
  | allParallel =>
    refine (sv.callAll_tells r r.body _).imp fun calls g ⟨ps, hps, htogether⟩ => ?_
    exact ⟨ps, hps, .of_together (by simp [Route.isParallel, hs]) htogether⟩
  | chain =>
    refine (sv.callChain_tells r r.body _).imp fun calls g ⟨ps, hps, hsteps⟩ => ?_
    exact ⟨ps, hps, .of_stepwise (.refl _) (by simp [Route.isParallel, hs]) hsteps⟩

/-- The trail of a route that comes to its end, from a router with a history. -/
theorem trail_passes {sv : Services} {route : Route} {r : Request} {p : Router × List Moment}
    {calls : List Call} {t : Router} (h : (sv.trail route r).runOn p.1 = (.ok calls, t)) :
    ∃ ps g, ((Strategy.trail (sv.noted r) route r.body).runOn p).2.2 = p.2 ++ g ∧
      sv.Passes p.1 g t ∧ ps.map (·.2) = calls ∧ Trailed sv route r ps g := by
  obtain ⟨hcalls, hstate⟩ := sv.noted_trail route r p
  rw [h] at hcalls hstate
  obtain ⟨g, hg, hpasses, ps, hps, htrailed⟩ :=
    sv.trail_tells route r p calls _ (Prod.ext hcalls rfl)
  rw [hstate] at hpasses
  exact ⟨ps, g, hg, hpasses, hps, htrailed⟩

end Services
end Switchboard
