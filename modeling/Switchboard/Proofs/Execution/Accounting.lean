import Mathlib.Data.List.Perm.Basic
import Switchboard.Proofs.Execution.Calm
import Switchboard.Proofs.Execution.Provenance
import Switchboard.Proofs.Execution.Trailed
import Switchboard.Proofs.Telemetry.Counters

/-! Accounts of a run: the calls in the results are those that sent requests, those that were
reported, and those that the log has; nothing else was sent, reported or logged. Requests go out in
the order of the trails. Reports come in the order in which calls end; this is the order of the trail
too where calls are made one after the other, but not where all mappings are called together. -/
namespace Switchboard

/-- One execution of a route: the request to it, its result, and when this was logged. -/
structure Execution where
  route : Route
  request : Request
  result : Result
  time : Int

/-- An execution and its calls, in the order of the trail and in the order in which they ended. -/
structure Account extends Execution where
  calls : List (Event × Call)
  ends : List (Event × Call)

/-- The calls of an account are those of the trail. They were made for the request and of mappings of
the route, and have ended in the order of the trail or in the order of their turns. The errors of the
result are those of its failed calls. -/
structure Account.IsTrue (sv : Services) (x : Account) : Prop where
  calls_eq : x.calls.map (·.2) = x.result.calls
  request : ∀ p ∈ x.calls, p.1.request = x.request
  mapping : ∀ p ∈ x.calls, p.1.mapping ∈ x.route.mappings
  outcome : ∀ p ∈ x.calls, p.1.Ends sv p.2
  ends_eq : x.route.isParallel = false → x.ends = x.calls
  inTurns : x.route.isParallel = true → InTurns sv.turnOf x.calls x.ends
  errors : x.result.errors.map some =
    (x.result.calls.filter fun c => !c.succeeded).map Call.errorText?

theorem Account.IsTrue.perm {sv : Services} {x : Account} (h : x.IsTrue sv) :
    x.ends.Perm x.calls := by
  cases hp : x.route.isParallel with
  | false => rw [h.ends_eq hp]
  | true => exact (h.inTurns hp).perm

/-- The entry tells of the execution. -/
structure LogEntry.IsOf (e : LogEntry) (x : Execution) : Prop where
  routeId : e.routeId = x.route.id
  routeName : e.routeName = x.route.name
  request : e.request = x.request.shape
  calls : e.calls = x.result.calls
  status : e.status = x.result.status
  errorMessage_none : e.errorMessage = none ↔ x.result.errors = []
  errorMessage : ∀ text ∈ e.errorMessage, text = "; ".intercalate x.result.errors
  time : e.time = x.time

theorem LogEntry.isOf_ofResult (x : Execution) :
    (ofResult x.route x.request x.result x.time).IsOf x := by
  refine ⟨rfl, rfl, rfl, rfl, rfl, ?_, ?_, rfl⟩
  · by_cases h : x.result.errors = [] <;> simp [ofResult, h]
  · intro text htext
    by_cases h : x.result.errors = []
    · simp [ofResult, h] at htext
    · simpa [ofResult, h, eq_comm] using htext

namespace Services

/-- The router after a step. -/
def next (sv : Services) (s : Router) : Step → Router
  | .clock now => { s with now }
  | .request path method r => (sv.execute path method r s).2

/-- What a request runs, if there is a route that may run. -/
def execution? (sv : Services) (path method : String) (r : Request) (s : Router) :
    Option Execution :=
  (sv.runnable? path method).map fun route =>
    ⟨route, r, (sv.execute path method r s).1, (sv.execute path method r s).2.now⟩

/-- What a run executes. -/
def executions (sv : Services) : List Step → Router → List Execution
  | [], _ => []
  | .clock now :: steps, s => sv.executions steps { s with now }
  | .request path method r :: steps, s =>
    (sv.execution? path method r s).toList ++
      sv.executions steps (sv.execute path method r s).2

/-- No request of a run crashes. -/
def Completes (sv : Services) : List Step → Router → Prop
  | [], _ => True
  | .clock now :: steps, s => sv.Completes steps { s with now }
  | .request path method r :: steps, s =>
    (∃ result t, (sv.run path method r).runOn s = (.ok result, t)) ∧
      sv.Completes steps (sv.execute path method r s).2

theorem IsCalm.completes {sv : Services} (h : sv.IsCalm) (steps : List Step) (s : Router) :
    sv.Completes steps s := by
  induction steps generalizing s with
  | nil => trivial
  | cons step steps ih =>
    cases step with
    | clock now => exact ih _
    | request path method r => exact ⟨h.run_finishes path method r s, ih _⟩

/-- The calls in the results of a run are those of what it executes. -/
theorem calls_of_executions (sv : Services) (steps : List Step) (s : Router) :
    (sv.executions steps s).flatMap (·.result.calls) =
      (sv.results steps s).flatMap (·.calls) := by
  induction steps generalizing s with
  | nil => rfl
  | cons step steps ih =>
    cases step with
    | clock now => exact ih _
    | request path method r =>
      have hone : (sv.execution? path method r s).toList.flatMap (·.result.calls) =
          (sv.execute path method r s).1.calls := by
        rcases hroute : sv.runnable? path method with _ | route
        · rw [(execute_of_not_runnable hroute r s).1, execution?, hroute]
          rfl
        · simp [execution?, hroute]
      simp only [executions, results, List.flatMap_append, List.flatMap_cons, hone, ih]

end Services

/-- From `s` to `t` the calls of the accounts `xs` have been made and nothing else. -/
structure Accounted (sv : Services) (s t : Router) (xs : List Account) : Prop where
  isTrue : ∀ x ∈ xs, x.IsTrue sv
  sent : ∃ os, t.sent = s.sent ++ os ∧
    List.Forall₂ (fun p o => p.1.Asks sv o)
      ((xs.flatMap (·.calls)).filter fun p => !p.2.fromCache) os
  reported : ∃ us, t.updates.offered = s.updates.offered ++ us ∧
    List.Forall₂ Telemetry.Update.IsOf us ((xs.flatMap (·.ends)).map (·.2)) ∧
    ((∀ j u, sv.metrics j u = .accepted) → t.updates.accepted = s.updates.accepted ++ us)
  logged : ∃ es, t.entries.offered = s.entries.offered ++ es ∧
    List.Forall₂ LogEntry.IsOf es (xs.map (·.toExecution))

namespace Accounted
variable {sv : Services} {s t u : Router}

theorem clock (sv : Services) (s : Router) (now : Int) : Accounted sv s { s with now } [] where
  isTrue := List.forall_mem_nil _
  sent := ⟨[], by simp, .nil⟩
  reported := ⟨[], by simp, .nil, fun _ => by simp⟩
  logged := ⟨[], by simp, .nil⟩

theorem refl (sv : Services) (s : Router) : Accounted sv s s [] := clock sv s s.now

theorem trans {xs ys : List Account} (h : Accounted sv s t xs) (h' : Accounted sv t u ys) :
    Accounted sv s u (xs ++ ys) where
  isTrue := List.forall_mem_append.mpr ⟨h.isTrue, h'.isTrue⟩
  sent := by
    obtain ⟨os, hos, hasks⟩ := h.sent
    obtain ⟨os', hos', hasks'⟩ := h'.sent
    refine ⟨os ++ os', by rw [hos', hos, List.append_assoc], ?_⟩
    rw [List.flatMap_append, List.filter_append]
    exact List.rel_append hasks hasks'
  reported := by
    obtain ⟨us, hus, hof, haccepted⟩ := h.reported
    obtain ⟨us', hus', hof', haccepted'⟩ := h'.reported
    refine ⟨us ++ us', by rw [hus', hus, List.append_assoc], ?_, fun hm => ?_⟩
    · rw [List.flatMap_append, List.map_append]
      exact List.rel_append hof hof'
    · rw [haccepted' hm, haccepted hm, List.append_assoc]
  logged := by
    obtain ⟨es, hes, hof⟩ := h.logged
    obtain ⟨es', hes', hof'⟩ := h'.logged
    refine ⟨es ++ es', by rw [hes', hes, List.append_assoc], ?_⟩
    rw [List.map_append]
    exact List.rel_append hof hof'

/-- The calls of all trails, in one order and in the other. -/
theorem perm {xs : List Account} (h : Accounted sv s t xs) :
    ((xs.flatMap (·.ends)).map (·.2)).Perm ((xs.map (·.toExecution)).flatMap (·.result.calls)) := by
  have hcalls : (xs.flatMap (·.calls)).map (·.2) =
      (xs.map (·.toExecution)).flatMap (·.result.calls) := by
    rw [List.map_flatMap, List.flatMap_map]
    exact List.flatMap_congr fun x hx => (h.isTrue x hx).calls_eq
  rw [← hcalls]
  exact (List.Perm.flatMap_left xs fun x hx => (h.isTrue x hx).perm).map _

end Accounted

namespace Services
variable {sv : Services} {s t : Router}

/-- A route that comes to its end has an account. -/
theorem runRoute_accounted {route : Route} {r : Request} {result : Result}
    (h : (sv.runRoute route r).runOn s = (.ok result, t)) :
    ∃ x : Account, x.toExecution = ⟨route, r, result, t.now⟩ ∧ Accounted sv s t [x] := by
  rw [runOn_runRoute] at h
  rcases htrail : (sv.trail route r).runOn s with ⟨x | calls, u⟩
  · rw [htrail] at h
    cases h
  · rw [htrail] at h
    cases h
    obtain ⟨ps, g, -, hpasses, hcalls, hps⟩ := @trail_passes sv route r (s, []) calls u htrail
    obtain ⟨os, hos, hasks⟩ := hpasses.sent
    obtain ⟨us, hus, hof, haccepted⟩ := hpasses.updates
    have hsettled := hps.isSettled
    rw [hcalls] at hsettled
    refine ⟨⟨⟨route, r, sv.resultOf route r (.ok calls), u.now⟩, ps, Moment.ends sv g⟩, rfl,
      ?_, ⟨os, hos, ?_⟩, ⟨us, hus, ?_, haccepted⟩, ?_⟩
    · exact List.forall_mem_singleton.mpr ⟨hcalls, hps.request, hps.mapping, hps.outcome,
        hps.ends_eq, hps.inTurns, Call.errorTexts_eq hsettled⟩
    -- What waits is what was not kept.
    · rw [hps.begins_eq, List.filter_map, List.forall₂_map_left_iff] at hasks
      have hwaits : ps.filter ((fun e : Event => e.waits sv) ∘ fun p => p.1) =
          ps.filter fun p => !p.2.fromCache := by
        refine List.filter_congr fun p hp => ?_
        rw [(hps.outcome p hp).facts.2.2, Bool.not_not]
        rfl
      rw [hwaits] at hasks
      simpa using hasks
    · rw [List.flatMap_singleton, List.forall₂_map_right_iff]
      exact hof.flip
    · refine ⟨[.ofResult route r (sv.resultOf route r (.ok calls)) u.now], ?_, ?_⟩
      · simp [logged, Telemetry.Journal.offered, hpasses.entries]
      · exact .cons (LogEntry.isOf_ofResult ⟨route, r, _, u.now⟩) .nil

/-- A request that does not crash. -/
theorem execute_accounted {path method : String} {r : Request}
    (h : ∃ result t, (sv.run path method r).runOn s = (.ok result, t)) :
    ∃ xs : List Account, xs.map (·.toExecution) = (sv.execution? path method r s).toList ∧
      Accounted sv s (sv.execute path method r s).2 xs := by
  rcases hroute : sv.runnable? path method with _ | route
  · rw [(execute_of_not_runnable hroute r s).2, execution?, hroute]
    exact ⟨[], rfl, .refl sv s⟩
  · obtain ⟨result, t, hrun⟩ := h
    have hexecute : sv.execute path method r s = (result, t) := by
      unfold execute
      rw [hrun]
    rw [run_of_runnable hroute] at hrun
    obtain ⟨x, hx, haccounted⟩ := runRoute_accounted hrun
    rw [execution?, hroute, hexecute]
    exact ⟨[x], congrArg (fun y => [y]) hx, haccounted⟩

/-- All requests of a run. -/
theorem executions_accounted {steps : List Step} (h : sv.Completes steps s) :
    ∃ xs : List Account, xs.map (·.toExecution) = sv.executions steps s ∧
      Accounted sv s (steps.foldl sv.next s) xs := by
  induction steps generalizing s with
  | nil => exact ⟨[], rfl, .refl sv s⟩
  | cons step steps ih =>
    cases step with
    | clock now =>
      obtain ⟨xs, hxs, haccounted⟩ := @ih { s with now } h
      exact ⟨xs, hxs, (Accounted.clock sv s now).trans haccounted⟩
    | request path method r =>
      obtain ⟨xs, hxs, haccounted⟩ := execute_accounted h.1
      obtain ⟨ys, hys, hmore⟩ := ih h.2
      refine ⟨xs ++ ys, ?_, haccounted.trans hmore⟩
      rw [List.map_append, hxs, hys]
      rfl

end Services

/-- Counters tell of calls: of how many there were, up to the size of a word, and of the error of the
failed one that ended last. -/
structure Telemetry.Counters.Counts (n : Counters) (made ended : List Call) : Prop where
  calls : n.calls.toNat = made.length % UInt64.size
  calls_eq : n.calls = n.successes + n.failures
  successes : n.successes.toNat = (made.filter (·.succeeded)).length % UInt64.size
  failures : n.failures.toNat = (made.filter fun c => !c.succeeded).length % UInt64.size
  cacheHits : n.cacheHits.toNat = (made.filter (·.fromCache)).length % UInt64.size
  lastError : n.lastError = (ended.filter fun c => !c.succeeded).getLast?.bind (·.error)

/-- Each mapping that was called has counters, and they tell of its own calls. -/
structure Telemetry.Table.Counts (t : Table) (made ended : List Call) : Prop where
  counters : ∀ k, ((Fields.get? k t).getD {}).Counts (made.filter (·.mappingId = k))
    (ended.filter (·.mappingId = k))
  has : ∀ k, Fields.has k t = true ↔ ∃ c ∈ made, c.mappingId = k

namespace Telemetry

/-- Updates of calls that are looked at in the same way. -/
theorem Update.IsOf.filter {us : List Update} {cs : List Call} {p : Update → Bool}
    {q : Call → Bool} (h : List.Forall₂ Update.IsOf us cs) (hpq : ∀ u c, u.IsOf c → p u = q c) :
    List.Forall₂ Update.IsOf (us.filter p) (cs.filter q) :=
  List.rel_filter (fun u c huc => Bool.eq_iff_iff.mp (hpq u c huc)) h

/-- Counters that tell of updates tell of the calls that these are of. -/
theorem Counters.TellsOf.counts {n : Counters} {us : List Update} {made ended : List Call}
    (h : n.TellsOf us) (hof : List.Forall₂ Update.IsOf us ended) (hperm : ended.Perm made) :
    n.Counts made ended := by
  have hfailed := Update.IsOf.filter (p := fun u => !u.succeeded) (q := fun c => !c.succeeded) hof
    fun u c huc => by rw [huc.succeeded]
  refine ⟨?_, h.calls_eq, ?_, ?_, ?_, ?_⟩
  · rw [h.calls, hof.length_eq, hperm.length_eq]
  · have hsome := Update.IsOf.filter (p := (·.succeeded)) (q := (·.succeeded)) hof
      fun u c huc => huc.succeeded
    rw [h.successes, hsome.length_eq, (hperm.filter _).length_eq]
  · rw [h.failures, hfailed.length_eq, (hperm.filter _).length_eq]
  · have hkept := Update.IsOf.filter (p := (·.fromCache)) (q := (·.fromCache)) hof
      fun u c huc => huc.fromCache
    rw [h.cacheHits, hkept.length_eq, (hperm.filter _).length_eq]
  · have herrors : (us.filter fun u => !u.succeeded).map (·.error) =
        (ended.filter fun c => !c.succeeded).map (·.error) := by
      rw [← List.forall₂_eq_eq_eq, List.forall₂_map_left_iff, List.forall₂_map_right_iff]
      exact hfailed.imp fun u c huc => huc.error
    have hlast := congrArg (fun es : List (Option String) => es.getLast?.bind id) herrors
    simpa [List.getLast?_map, Option.bind_map, Function.comp_def, h.lastError] using hlast

theorem Table.TellsOf.counts {t : Table} {us : List Update} {made ended : List Call}
    (h : t.TellsOf us) (hof : List.Forall₂ Update.IsOf us ended) (hperm : ended.Perm made) :
    t.Counts made ended where
  counters k := (h.counters k).counts
    (Update.IsOf.filter hof fun u c huc => by rw [huc.mappingId]) (hperm.filter _)
  has k := by
    have hids : us.map (·.mappingId) = ended.map (·.mappingId) := by
      rw [← List.forall₂_eq_eq_eq, List.forall₂_map_left_iff, List.forall₂_map_right_iff]
      exact hof.imp fun u c huc => huc.mappingId
    have hmade : k ∈ us.map (·.mappingId) ↔ k ∈ made.map (·.mappingId) := by
      rw [hids]
      exact (hperm.map _).mem_iff
    rw [List.mem_map, List.mem_map] at hmade
    exact (h.has k).trans hmade

end Telemetry

/-- A run whose requests do not crash has accounts for what it has executed, and whatever was sent,
reported and logged is theirs. Counters of a new sink tell of the calls in the results. -/
theorem run_accounted {sv : Services} {steps : List Step} {s : Router}
    (h : sv.Completes steps s) :
    (sv.executions steps s).flatMap (·.result.calls) = (sv.results steps s).flatMap (·.calls) ∧
    ∃ xs : List Account, xs.map (·.toExecution) = sv.executions steps s ∧
      Accounted sv s (steps.foldl sv.next s) xs ∧
      ((∀ j u, sv.metrics j u = .accepted) → s.updates = [] →
        (Telemetry.Table.ofList (steps.foldl sv.next s).updates.accepted).Counts
          ((sv.results steps s).flatMap (·.calls)) ((xs.flatMap (·.ends)).map (·.2))) := by
  obtain ⟨xs, hxs, haccounted⟩ := Services.executions_accounted h
  refine ⟨sv.calls_of_executions steps s, xs, hxs, haccounted, fun hm hs => ?_⟩
  obtain ⟨us, -, hof, haccepted⟩ := haccounted.reported
  have hperm := haccounted.perm
  rw [hxs, sv.calls_of_executions steps s] at hperm
  have hus : (steps.foldl sv.next s).updates.accepted = us := by
    rw [haccepted hm, hs]
    rfl
  rw [hus]
  exact (Telemetry.Table.tellsOf_ofList us).counts hof hperm

theorem Sample.isCalm_cachedServices : Sample.cachedServices.IsCalm where
  route := nofun
  reply := nofun
  rules := Rule.applyAll_ne_error nofun

theorem run_accounted_cached :
    (Sample.cachedServices.executions Sample.steps (.start {})).length = 2 ∧
    ∃ xs : List Account,
      xs.map (·.toExecution) = Sample.cachedServices.executions Sample.steps (.start {}) ∧
      Accounted Sample.cachedServices (.start {})
        (Sample.steps.foldl Sample.cachedServices.next (.start {})) xs ∧
      (Telemetry.Table.ofList
        (Sample.steps.foldl Sample.cachedServices.next (.start {})).updates.accepted).Counts
        ((Sample.cachedServices.results Sample.steps (.start {})).flatMap (·.calls))
        ((xs.flatMap (·.ends)).map (·.2)) := by
  obtain ⟨-, xs, hxs, haccounted, hcounts⟩ :=
    run_accounted (Sample.isCalm_cachedServices.completes Sample.steps (.start {}))
  exact ⟨rfl, xs, hxs, haccounted, hcounts (fun _ _ => rfl) rfl⟩

namespace Sample

/-- Two mappings of one name that are called together. -/
def race : Route where
  id := "p"
  name := "p"
  path := "/p"
  strategy := .allParallel
  mappings := [{ mapping "slow" false false with id := "m" },
    { mapping "fast" false false with id := "m" }]

/-- Both requests are refused, the first one after the second. The route may run under one path
only. -/
def racing : Services where
  settings := {}
  routes := fun path _ => .found (some { race with isEnabled := path = "/p" })
  transport := fun
    | [], _ => .response ⟨503, none, ""⟩
    | _, _ => .response ⟨404, none, ""⟩
  library := ⟨fun _ => .ok none, []⟩
  turn := fun
    | [], _ => 2
    | _, _ => 1

def races : List Step := [.request "/p" "GET" (get none), .request "/off" "GET" (get none)]

theorem isCalm_racing : racing.IsCalm where
  route := nofun
  reply := by
    intro sent o c
    cases sent <;> nofun
  rules := Rule.applyAll_ne_error nofun

end Sample

/-- Where mappings are called together, reports need not come in the order of the trail, and the last
error need not be that of the last failure in it. A route that may not run has an error without a
call. -/
theorem reports_out_of_order :
    Sample.racing.Completes Sample.races (.start {}) ∧
    (let calls := (Sample.racing.results Sample.races (.start {})).flatMap (·.calls)
    let updates := (Sample.races.foldl Sample.racing.next (.start {})).updates
    calls.map (·.integrationId) = ["slow", "fast"] ∧
      updates.offered.map (·.integrationId) = ["fast", "slow"] ∧
      (updates.offered.map fun u => (u.mappingId, u.succeeded, u.error, u.fromCache)) ≠
        (calls.map fun c => (c.mappingId, c.succeeded, c.error, c.fromCache)) ∧
      (Fields.get? "m" (Telemetry.Table.ofList updates.accepted)).bind (·.lastError) ≠
        (calls.filter fun c => !c.succeeded).getLast?.bind (·.error)) ∧
    ∃ result ∈ Sample.racing.results Sample.races (.start {}), result.route.isSome = true ∧
      result.errors ≠ [] ∧ result.calls = [] := by
  refine ⟨Sample.isCalm_racing.completes Sample.races _, by decide +kernel, ?_⟩
  refine ⟨_, List.mem_cons_of_mem _ List.mem_cons_self, rfl, ?_, rfl⟩
  decide +kernel

end Switchboard
