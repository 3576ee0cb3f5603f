import Switchboard.Proofs.Execution.Fresh
import Switchboard.Proofs.Execution.History

/-! Services that keep no answers, and verdicts: what a result says, however its data was got. -/
namespace Switchboard

def Mapping.uncached (m : Mapping) : Mapping := { m with isCached := false }

def Route.uncached (route : Route) : Route :=
  { route with mappings := route.mappings.map Mapping.uncached }

def Lookup.uncached : Lookup → Lookup
  | found route => found (route.map Route.uncached)
  | failed e => failed e
  | crashed c => crashed c

@[simp] theorem Route.id_uncached (route : Route) : route.uncached.id = route.id := rfl

@[simp] theorem Route.isEnabled_uncached (route : Route) :
    route.uncached.isEnabled = route.isEnabled := rfl

@[simp] theorem Route.isEmpty_mappings_uncached (route : Route) :
    route.uncached.mappings.isEmpty = route.mappings.isEmpty := List.isEmpty_map

/-- The same services with a cache for none of the mappings. -/
def Services.uncached (sv : Services) : Services :=
  { sv with routes := fun path method => (sv.routes path method).uncached }

def Configuration.uncached (c : Configuration) : Configuration :=
  { c with routes := c.routes.map Route.uncached }

theorem Route.find?_uncached (routes : List Route) (path method : String) :
    find? (routes.map uncached) path method = (find? routes path method).map uncached := by
  unfold find?
  have hanswering : (routes.map uncached).filter (·.answers path method) =
      (routes.filter (·.answers path method)).map uncached := by
    rw [List.filter_map]
    rfl
  have henabled : ((routes.filter (·.answers path method)).map uncached).find? (·.isEnabled) =
      ((routes.filter (·.answers path method)).find? (·.isEnabled)).map uncached := by
    rw [List.find?_map]
    rfl
  simp only [hanswering, henabled, List.head?_map]
  cases (routes.filter (·.answers path method)).find? (·.isEnabled) <;> rfl

/-- Services over a configuration keep no answers where the configuration has it so. -/
theorem Configuration.services_uncached (c : Configuration) (handlers : Fields Rule.Handler)
    (transport : List Outbound → Outbound → Reply) :
    (c.services handlers transport).uncached = c.uncached.services handlers transport := by
  have hroutes : (fun path method => Lookup.uncached (.found (Route.find? c.routes path method))) =
      fun path method => .found (Route.find? (c.routes.map Route.uncached) path method) := by
    funext path method
    rw [Route.find?_uncached]
    rfl
  unfold Services.uncached Configuration.services Configuration.uncached
  simp only [hroutes]

/-- The way to call mappings where each is called as one without a cache. -/
def Caller.uncached {σ φ : Type} (k : Caller σ φ) : Caller σ φ :=
  { k with begin := fun m body => k.begin m.uncached body }

namespace Strategy
variable {σ φ : Type}

theorem callUntilSuccess_uncached (call : Mapping → Effect σ Call) (ms : List Mapping) :
    callUntilSuccess call (ms.map Mapping.uncached) =
      callUntilSuccess (fun m => call m.uncached) ms := by
  induction ms with
  | nil => rfl
  | cons m ms ih => simp only [List.map_cons, callUntilSuccess, ih]

theorem callChain_uncached (call : Mapping → Option Json → Effect σ Call) (ms : List Mapping)
    (body : Option Json) :
    callChain call body (ms.map Mapping.uncached) =
      callChain (fun m => call m.uncached) body ms := by
  induction ms generalizing body with
  | nil => rfl
  | cons m ms ih => simp only [List.map_cons, callChain, ih]

theorem settle_uncached (k : Caller σ φ) (n : Nat) (xs : List (Progress φ)) :
    k.uncached.settle n xs = k.settle n xs := by
  induction n with
  | zero => rfl
  | succ n ih =>
    simp only [Caller.settle, ih]
    rfl

theorem lastTurn_uncached (k : Caller σ φ) (xs : List (Progress φ)) :
    k.uncached.lastTurn xs = k.lastTurn xs := by
  induction xs with
  | nil => rfl
  | cons x xs ih =>
    cases x with
    | done c => exact ih
    | waiting f => exact congrArg (max (k.turn f)) ih

theorem callAll_uncached (k : Caller σ φ) (body : Option Json) (ms : List Mapping) :
    callAll k body (ms.map Mapping.uncached) = callAll k.uncached body ms := by
  have hbegin : k.beginAll body (ms.map Mapping.uncached) = k.uncached.beginAll body ms := by
    unfold Caller.beginAll
    rw [Effect.each_map]
    rfl
  unfold callAll
  simp only [hbegin, settle_uncached, lastTurn_uncached]

theorem byPriority_uncached (ms : List Mapping) :
    byPriority (ms.map Mapping.uncached) = (byPriority ms).map Mapping.uncached := by
  unfold byPriority
  refine (List.map_mergeSort ?_).symm
  intro m hm n hn
  rfl

theorem priorityPlan_uncached (ms : List Mapping) :
    priorityPlan (ms.map Mapping.uncached) = (priorityPlan ms).map Mapping.uncached := by
  unfold priorityPlan
  rw [List.filter_map, List.filter_map, byPriority_uncached, byPriority_uncached, List.map_append]
  rfl

/-- The trail of a route without cached mappings is that of the route over calls that keep
nothing. -/
theorem trail_uncached (k : Caller σ φ) (route : Route) (body : Option Json) :
    trail k route.uncached body = trail k.uncached route body := by
  have hstrategy : route.uncached.strategy = route.strategy := rfl
  have hmappings : route.uncached.mappings = route.mappings.map Mapping.uncached := rfl
  unfold trail
  rw [hstrategy, hmappings]
  cases route.strategy with
  | firstSuccess => exact callUntilSuccess_uncached (k.call · body) route.mappings
  | priorityOrder =>
    rw [priorityPlan_uncached]
    exact callUntilSuccess_uncached (k.call · body) (priorityPlan route.mappings)
  | mergeResults => exact callAll_uncached k body route.mappings
  | allParallel => exact callAll_uncached k body route.mappings
  | chain => exact callChain_uncached k.call route.mappings body

end Strategy

/-- A call without what tells where its data is from. -/
def Call.plain (c : Call) : Call := { c with statusCode := none, fromCache := false }

/-- What a result says to the one who asked. -/
def Result.verdict (result : Result) : Status × Json × List String :=
  (result.status, result.data, result.errors)

theorem Call.agree_of_plain {c d : Call} (h : c.plain = d.plain) :
    c.succeeded = d.succeeded ∧ c.data = d.data := by
  have hsucceeded := congrArg Call.succeeded h
  have hdata := congrArg Call.data h
  exact ⟨hsucceeded, hdata⟩

theorem Call.errorTexts_plain (calls : List Call) :
    errorTexts (calls.map plain) = errorTexts calls := by
  unfold errorTexts
  rw [List.filter_map, List.filterMap_map]
  rfl

namespace Strategy

theorem ofFirst_plain (late : Status) (calls : List Call) :
    ofFirst late (calls.map Call.plain) = ofFirst late calls := by
  unfold ofFirst
  rw [Call.errorTexts_plain, List.find?_map]
  have hfind : calls.find? ((fun c => c.succeeded) ∘ Call.plain) =
      calls.find? fun c => c.succeeded := rfl
  rw [hfind]
  cases calls.find? fun c => c.succeeded <;> rfl

theorem ofAll_plain (strict : Bool) (combine : List Source → Json) (calls : List Call) :
    ofAll strict combine (calls.map Call.plain) = ofAll strict combine calls := by
  unfold ofAll
  rw [Call.errorTexts_plain, List.any_map, List.map_map]
  rfl

theorem ofChain_plain (body : Option Json) (calls : List Call) :
    ofChain body (calls.map Call.plain) = ofChain body calls := by
  unfold ofChain
  rw [List.all_map, List.getLast?_map, Option.map_map]
  rfl

end Strategy

namespace Services
variable {sv : Services}

theorem outcome_plain (sv : Services) (route : Route) (r : Request) (calls : List Call) :
    sv.outcome route r (calls.map Call.plain) = sv.outcome route r calls := by
  unfold outcome
  cases route.strategy with
  | firstSuccess => exact Strategy.ofFirst_plain _ calls
  | priorityOrder => exact Strategy.ofFirst_plain _ calls
  | mergeResults => exact Strategy.ofAll_plain _ _ calls
  | allParallel => exact Strategy.ofAll_plain _ _ calls
  | chain => exact Strategy.ofChain_plain _ calls

@[simp] theorem routes_uncached (sv : Services) (path method : String) :
    sv.uncached.routes path method = (sv.routes path method).uncached := rfl

theorem runnable?_uncached (sv : Services) (path method : String) :
    sv.uncached.runnable? path method = (sv.runnable? path method).map Route.uncached := by
  unfold runnable?
  rw [routes_uncached]
  rcases sv.routes path method with (_ | route) | e | c
  · rfl
  · simp only [Lookup.uncached, Option.map_some, Route.isEnabled_uncached,
      Route.isEmpty_mappings_uncached]
    by_cases h : (route.isEnabled && !route.mappings.isEmpty) = true
    · rw [if_pos h, if_pos h]
      rfl
    · rw [if_neg h, if_neg h]
      rfl
  · rfl
  · rfl

/-- Without a route to run, both say the same. -/
theorem verdict_of_not_runnable {path method : String} (h : sv.runnable? path method = none)
    (r : Request) (s t : Router) :
    (sv.uncached.execute path method r t).1.verdict = (sv.execute path method r s).1.verdict := by
  unfold runnable? at h
  unfold execute run
  rw [routes_uncached]
  rcases hr : sv.routes path method with (_ | route) | e | c
  · rfl
  · rw [hr] at h
    simp only [Lookup.uncached, Option.map_some, Route.id_uncached, Route.isEnabled_uncached,
      Route.isEmpty_mappings_uncached]
    by_cases hen : route.isEnabled = true
    · by_cases hm : route.mappings.isEmpty = true
      · simp [hen, hm, Result.failed, Result.verdict]
      · simp [hen, hm] at h
    · simp [hen, Result.failed, Result.verdict]
  · rfl
  · rfl

end Services
end Switchboard
