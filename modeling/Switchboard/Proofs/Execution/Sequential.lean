import Switchboard.Proofs.Execution.Calls
import Switchboard.Proofs.Execution.Plan

/-! Routes that try one mapping after the other: where they stop, and what they make of their
calls. -/
namespace Switchboard

namespace Strategy
variable {σ : Type}

/-- Trying up to the first success is calling the mappings of a prefix, which ends there. -/
theorem callUntilSuccess_prefix {call : Mapping → Effect σ Call} {ms : List Mapping} {s t : σ}
    {calls : List Call} (h : (callUntilSuccess call ms).runOn s = (.ok calls, t)) :
    ∃ tried rest, ms = tried ++ rest ∧ (Effect.each call tried).runOn s = (.ok calls, t) ∧
      ((∃ failed c, calls = failed ++ [c] ∧ (∀ x ∈ failed, x.succeeded = false) ∧
          c.succeeded = true) ∨
        rest = [] ∧ ∀ x ∈ calls, x.succeeded = false) := by
  induction ms generalizing s t calls with
  | nil =>
    cases h
    exact ⟨[], [], rfl, rfl, .inr ⟨rfl, by simp⟩⟩
  | cons m ms ih =>
    unfold callUntilSuccess at h
    obtain ⟨c, u, hcall, h⟩ := Effect.runOn_bind_eq_ok h
    by_cases hc : c.succeeded = true
    · rw [if_pos hc] at h
      cases h
      refine ⟨[m], ms, rfl, ?_, .inl ⟨[], c, rfl, by simp, hc⟩⟩
      simp only [Effect.each, Effect.runOn_bind, hcall, Effect.runOn_pure]
    · rw [if_neg hc] at h
      obtain ⟨more, v, hmore, h⟩ := Effect.runOn_bind_eq_ok h
      cases h
      obtain ⟨tried, rest, rfl, hall, hend⟩ := ih hmore
      refine ⟨m :: tried, rest, rfl, ?_, ?_⟩
      · simp only [Effect.each, Effect.runOn_bind, hcall, hall, Effect.runOn_pure]
      · rcases hend with ⟨failed, d, rfl, hfailed, hd⟩ | ⟨hrest, hfailed⟩
        · exact .inl ⟨c :: failed, d, rfl,
            List.forall_mem_cons.mpr ⟨by simpa using hc, hfailed⟩, hd⟩
        · exact .inr ⟨hrest, List.forall_mem_cons.mpr ⟨by simpa using hc, hfailed⟩⟩

/-- The status and the data of calls of which only the last one succeeded. -/
theorem ofFirst_of_success {late : Status} {failed : List Call} {c : Call}
    (hfailed : ∀ x ∈ failed, x.succeeded = false) (hc : c.succeeded = true)
    (herrors : ∀ x ∈ failed, x.error.isSome = true) :
    ofFirst late (failed ++ [c]) =
      (if failed = [] then .success else late, c.data.getD .null) := by
  have hfind : (failed ++ [c]).find? (·.succeeded) = some c := by
    rw [List.find?_append, List.find?_eq_none.mpr (by simpa using hfailed)]
    simp [hc]
  have htexts : Call.errorTexts (failed ++ [c]) = [] ↔ failed = [] := by
    constructor
    · intro h
      rcases failed with _ | ⟨x, xs⟩
      · rfl
      · obtain ⟨e, he⟩ := Option.isSome_iff_exists.mp (herrors x List.mem_cons_self)
        have hx := hfailed x List.mem_cons_self
        simp [Call.errorTexts, hx, Call.errorText?, he] at h
    · rintro rfl
      simp [Call.errorTexts, hc]
  unfold ofFirst
  rw [hfind]
  simp only [htexts]

theorem ofFirst_of_failure {late : Status} {calls : List Call}
    (h : ∀ x ∈ calls, x.succeeded = false) : ofFirst late calls = (.failure, .null) := by
  unfold ofFirst
  rw [List.find?_eq_none.mpr (by simpa using h)]

/-- What is made of calls that end with their first success, or have none. -/
theorem ofFirst_cases {late status : Status} {data : Json} {calls : List Call}
    {rest : List Mapping}
    (hend : (∃ failed c, calls = failed ++ [c] ∧ (∀ x ∈ failed, x.succeeded = false) ∧
        c.succeeded = true) ∨ rest = [] ∧ ∀ x ∈ calls, x.succeeded = false)
    (hsettled : ∀ c ∈ calls, c.IsSettled) (h : ofFirst late calls = (status, data)) :
    (∃ failed c, calls = failed ++ [c] ∧ (∀ x ∈ failed, x.succeeded = false) ∧
      c.succeeded = true ∧ c.data = some data ∧
      status = if failed = [] then .success else late) ∨
    rest = [] ∧ (∀ x ∈ calls, x.succeeded = false) ∧ status = .failure ∧ data = .null := by
  rcases hend with ⟨failed, c, hcalls, hfailed, hc⟩ | ⟨hrest, hfailed⟩
  · have herror : ∀ x ∈ failed, x.error.isSome = true := by
      intro x hx
      have hmem : x ∈ calls := by simp [hcalls, hx]
      rw [(hsettled x hmem).error_isSome, hfailed x hx]
      rfl
    rw [hcalls, ofFirst_of_success hfailed hc herror] at h
    have hdata : c.data.isSome = true := by
      rw [(hsettled c (by simp [hcalls])).data_isSome, hc]
    obtain ⟨v, hv⟩ := Option.isSome_iff_exists.mp hdata
    have hstatus := congrArg Prod.fst h
    have hvalue := congrArg Prod.snd h
    simp only [hv, Option.getD_some] at hvalue
    exact .inl ⟨failed, c, hcalls, hfailed, hc, by rw [hv, hvalue], hstatus.symm⟩
  · rw [ofFirst_of_failure hfailed] at h
    exact .inr ⟨hrest, hfailed, (congrArg Prod.fst h).symm, (congrArg Prod.snd h).symm⟩

end Strategy

/-- Each failed call has an error text. -/
theorem Call.errorTexts_eq {calls : List Call} (h : ∀ c ∈ calls, c.IsSettled) :
    (Call.errorTexts calls).map some =
      (calls.filter fun c => !c.succeeded).map Call.errorText? := by
  unfold Call.errorTexts
  have hsome : ∀ c ∈ calls.filter (fun c => !c.succeeded), (Call.errorText? c).isSome = true := by
    intro c hc
    obtain ⟨hmem, hfailed⟩ := List.mem_filter.mp hc
    rw [Call.errorText?, Option.isSome_map, (h c hmem).error_isSome]
    exact hfailed
  generalize calls.filter (fun c => !c.succeeded) = failed at hsome ⊢
  induction failed with
  | nil => rfl
  | cons c cs ih =>
    obtain ⟨e, he⟩ := Option.isSome_iff_exists.mp (hsome c List.mem_cons_self)
    rw [List.filterMap_cons, he]
    simp only [List.map_cons, he]
    rw [ih fun d hd => hsome d (List.mem_cons_of_mem _ hd)]

namespace Services

/-- Calls of all mappings of a list, one after the other. -/
theorem each_accounts {sv : Services} {r : Request} {body : Option Json} {ms : List Mapping}
    {s t : Router} {calls : List Call}
    (h : (Effect.each (sv.call · r body) ms).runOn s = (.ok calls, t)) :
    List.Forall₂ Call.IsOf calls ms ∧ (∀ c ∈ calls, c.IsSettled) ∧
      s.Accounts t calls (ms.flatMap fun m => (m.key? r body).toList) := by
  induction ms generalizing s t calls with
  | nil =>
    cases h
    exact ⟨.nil, by simp, Router.Accounts.refl s⟩
  | cons m ms ih =>
    obtain ⟨c, u, hcall, h⟩ := Effect.runOn_bind_eq_ok h
    obtain ⟨more, v, hmore, h⟩ := Effect.runOn_bind_eq_ok h
    cases h
    obtain ⟨hof, hsettled, hacc⟩ := call_accounts hcall
    obtain ⟨hofs, hsettleds, haccs⟩ := ih hmore
    exact ⟨.cons hof hofs, List.forall_mem_cons.mpr ⟨hsettled, hsettleds⟩, hacc.trans haccs⟩

/-- What a run of a route is made of. -/
theorem runRoute_eq_ok {sv : Services} {route : Route} {r : Request} {s t : Router}
    {result : Result} (h : (sv.runRoute route r).runOn s = (.ok result, t)) :
    ∃ u, (sv.trail route r).runOn s = (.ok result.calls, u) ∧
      sv.outcome route r result.calls = (result.status, result.data) ∧
      result.errors = Call.errorTexts result.calls ∧ t = { u with entries := t.entries } := by
  unfold runRoute at h
  obtain ⟨calls, u, hcalls, h⟩ := Effect.runOn_bind_eq_ok h
  cases h
  exact ⟨u, hcalls, rfl, rfl, rfl⟩

/-- A route that may run is what a request to it runs. -/
theorem execute_of_runRoute {sv : Services} {path method : String} {route : Route} {r : Request}
    {s t : Router} {result : Result} (hr : sv.routes path method = .found (some route))
    (he : route.isEnabled = true) (hm : route.mappings ≠ [])
    (h : (sv.runRoute route r).runOn s = (.ok result, t)) :
    sv.execute path method r s = (result, t) := by
  unfold execute run
  simp [hr, he, hm, h]

end Services

/-- The status of a sequential route that succeeds after failures. -/
def Route.late (route : Route) : Status :=
  match route.strategy with
  | .priorityOrder => .partly
  | _ => .success

/-- A route that tries the mappings of its plan has called `tried`, and `rest` was left alone. -/
structure SequentialRun (sv : Services) (route : Route) (r : Request) (s t : Router)
    (result : Result) (tried rest : List Mapping) : Prop where
  plan_eq : route.plan = tried ++ rest
  calls : ∃ u, (Effect.each (sv.call · r r.body) tried).runOn s = (.ok result.calls, u) ∧
    s.Accounts u result.calls (tried.flatMap fun m => (m.key? r r.body).toList) ∧
    t = { u with entries := t.entries }
  trail : List.Forall₂ Call.IsOf result.calls tried
  outcome :
    (∃ failed c, result.calls = failed ++ [c] ∧ (∀ x ∈ failed, x.succeeded = false) ∧
      c.succeeded = true ∧ c.data = some result.data ∧
      result.status = if failed = [] then .success else route.late) ∨
    rest = [] ∧ (∀ x ∈ result.calls, x.succeeded = false) ∧ result.status = .failure ∧
      result.data = .null
  errors : result.errors.map some =
    (result.calls.filter fun c => !c.succeeded).map Call.errorText?
  fallback : route.strategy = .priorityOrder → ∀ before m after, tried = before ++ m :: after →
    m.isFallback = true →
      (∀ n ∈ route.mappings, n.isFallback = false → n ∈ before) ∧
        ∀ x ∈ result.calls.take before.length, x.succeeded = false

/-- Calls that come before another one have failed. -/
theorem failed_of_take {calls : List Call} {n : Nat} (hn : n < calls.length)
    (h : (∃ failed c, calls = failed ++ [c] ∧ ∀ x ∈ failed, x.succeeded = false) ∨
      ∀ x ∈ calls, x.succeeded = false) : ∀ x ∈ calls.take n, x.succeeded = false := by
  intro x hx
  rcases h with ⟨failed, c, rfl, hfailed⟩ | hfailed
  · rw [List.length_append, List.length_singleton] at hn
    rw [List.take_append_of_le_length (by omega)] at hx
    exact hfailed x (List.mem_of_mem_take hx)
  · exact hfailed x (List.mem_of_mem_take hx)

/-- A route that tries one mapping after the other goes through its plan up to the first success,
and a request to it gets what that gives. -/
theorem runRoute_sequential {sv : Services} {route : Route} {r : Request} {s t : Router}
    {result : Result} (hs : route.strategy = .firstSuccess ∨ route.strategy = .priorityOrder)
    (h : (sv.runRoute route r).runOn s = (.ok result, t)) :
    (route.strategy = .firstSuccess → route.plan = route.mappings) ∧
      (route.strategy = .priorityOrder → IsPriorityPlan route.mappings route.plan) ∧
      (∃ tried rest, SequentialRun sv route r s t result tried rest) ∧
      ∀ path method, sv.routes path method = .found (some route) → route.isEnabled = true →
        route.mappings ≠ [] → sv.execute path method r s = (result, t) := by
  have hplan : route.strategy = .priorityOrder → IsPriorityPlan route.mappings route.plan := by
    intro hp
    unfold Route.plan
    rw [hp]
    exact isPriorityPlan_priorityPlan route.mappings
  obtain ⟨u, htrail, houtcome, herrors, ht⟩ := Services.runRoute_eq_ok h
  have hseq : (Strategy.callUntilSuccess (sv.call · r r.body) route.plan).runOn s =
      (.ok result.calls, u) := by
    rw [← htrail]
    unfold Services.trail Strategy.trail Route.plan
    rcases hs with hs | hs <;> rw [hs] <;> rfl
  have hfirst : Strategy.ofFirst route.late result.calls = (result.status, result.data) := by
    rw [← houtcome]
    unfold Services.outcome Route.late
    rcases hs with hs | hs <;> rw [hs]
  refine ⟨fun hf => ?_, hplan, ?_, fun path method hr he hm =>
    Services.execute_of_runRoute hr he hm h⟩
  · unfold Route.plan
    rw [hf]
  · obtain ⟨tried, rest, hsplit, hall, hend⟩ := Strategy.callUntilSuccess_prefix hseq
    obtain ⟨hof, hsettled, hacc⟩ := Services.each_accounts hall
    refine ⟨tried, rest, hsplit, ⟨u, hall, hacc, ht⟩, hof, ?_, ?_, ?_⟩
    · exact Strategy.ofFirst_cases hend hsettled hfirst
    · rw [herrors]
      exact Call.errorTexts_eq hsettled
    · intro hp before m after htried hm
      constructor
      · intro n hn hprimary
        have hp := hplan hp
        rw [hsplit, htried, List.append_assoc, List.cons_append] at hp
        exact hp.mem_before hm hn hprimary
      · have hlen := hof.length_eq
        rw [htried, List.length_append, List.length_cons] at hlen
        refine failed_of_take (by omega) ?_
        rcases hend with ⟨failed, c, hcalls, hfailed, -⟩ | ⟨-, hfailed⟩
        · exact .inl ⟨failed, c, hcalls, hfailed⟩
        · exact .inr hfailed

namespace Sample

def mapping (id : String) (isFallback isCached : Bool) : Mapping where
  id
  integrationId := id
  integrationName := id
  baseUrl := "http://" ++ id
  isFallback
  isCached

/-- A fallback that stands before its primary mapping. -/
def route : Route where
  id := "r"
  name := "r"
  path := "/r"
  strategy := .priorityOrder
  mappings := [mapping "b" true false, mapping "a" false false]

/-- The first request is refused, all others are answered. -/
def services : Services where
  settings := {}
  routes := fun _ _ => .found (some route)
  transport := fun
    | [], _ => .response ⟨503, none, ""⟩
    | _, _ => .response ⟨200, none, ""⟩
  library := ⟨fun _ => .ok none, []⟩

end Sample

theorem runRoute_sequential_fallback :
    ∃ result t, (Sample.services.runRoute Sample.route ⟨"GET", [], none, []⟩).runOn
        (.start {}) = (.ok result, t) ∧
      result.status = .partly ∧ ∃ tried rest,
        SequentialRun Sample.services Sample.route ⟨"GET", [], none, []⟩ (.start {}) t result
          tried rest := by
  have hplan : priorityPlan Sample.route.mappings =
      [Sample.mapping "a" false false, Sample.mapping "b" true false] := by
    simp [priorityPlan, byPriority, Sample.route, Sample.mapping]
  obtain ⟨result, t, h, hstatus⟩ : ∃ result t,
      (Sample.services.runRoute Sample.route ⟨"GET", [], none, []⟩).runOn (.start {}) =
        (.ok result, t) ∧ result.status = .partly := by
    unfold Services.runRoute Services.trail Strategy.trail
    rw [hplan]
    exact ⟨_, _, rfl, rfl⟩
  exact ⟨result, t, h, hstatus, (runRoute_sequential (.inr rfl) h).2.2.1⟩

end Switchboard
