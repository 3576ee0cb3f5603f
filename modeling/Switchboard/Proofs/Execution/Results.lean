import Switchboard.Proofs.Execution.Outcome
import Switchboard.Proofs.Execution.Trailed

/-! Every request has a well-formed result: its status, its data, its errors and the calls of its
trail fit together, also where something crashed. -/
namespace Switchboard

/-- The parts of a result fit together. -/
structure Result.WellFormed (result : Result) : Prop where
  success_member : result.toJson.member? "success" = some (.bool (result.status ≠ .failure))
  errors_member : result.toJson.member? "errors" = none ↔ result.errors = []
  failure : result.status = .failure → result.data = .null ∧ result.errors ≠ []
  success : result.status ≠ .failure → ∃ c ∈ result.calls, c.succeeded = true
  partly : result.status = .partly →
    (∃ c ∈ result.calls, c.succeeded = false) ∧ (∃ c ∈ result.calls, c.succeeded = true) ∧
      ∃ route, result.route = some route ∧ (route.strategy = .priorityOrder ∨
        route.strategy = .mergeResults ∨ route.strategy = .allParallel)
  clean : result.errors = [] → ∀ c ∈ result.calls, c.succeeded = true
  late : result.status = .success → result.errors ≠ [] →
    ∃ route, result.route = some route ∧ route.strategy = .firstSuccess

namespace Result

theorem member_success (result : Result) :
    result.toJson.member? "success" = some (.bool (result.status ≠ .failure)) := rfl

/-- The record of a result has no errors where there are none. -/
theorem member_errors (result : Result) :
    result.toJson.member? "errors" = none ↔ result.errors = [] := by
  unfold toJson Json.member?
  by_cases h : result.errors = []
  · simp [h, Fields.get?]
  · simp [h, Fields.get?]

theorem wellFormed_failed (error : String) (route : Option Route) :
    (failed error route).WellFormed where
  success_member := member_success _
  errors_member := member_errors _
  failure := fun _ => ⟨rfl, List.cons_ne_nil _ _⟩
  success := fun h => absurd rfl h
  partly := fun h => nomatch h
  clean := fun h => nomatch h
  late := fun h => nomatch h

end Result

/-- What a strategy makes of calls fits them. -/
structure Strategy.Fits (strategy : Strategy) (calls : List Call) (status : Status) (data : Json) :
    Prop where
  failure : status = .failure → data = .null ∧ ∃ c ∈ calls, c.succeeded = false
  success : status ≠ .failure → ∃ c ∈ calls, c.succeeded = true
  partly : status = .partly → (∃ c ∈ calls, c.succeeded = false) ∧
    (strategy = .priorityOrder ∨ strategy = .mergeResults ∨ strategy = .allParallel)
  late : status = .success → (∃ c ∈ calls, c.succeeded = false) → strategy = .firstSuccess

namespace Strategy
variable {strategy : Strategy} {calls : List Call} {status : Status} {data : Json}

theorem fits_of_failure (h : ∃ c ∈ calls, c.succeeded = false) :
    Fits strategy calls .failure .null where
  failure := fun _ => ⟨rfl, h⟩
  success := fun h => absurd rfl h
  partly := fun h => nomatch h
  late := fun h => nomatch h

theorem fits_of_success (hne : calls ≠ []) (h : ∀ c ∈ calls, c.succeeded = true) :
    Fits strategy calls .success data where
  failure := fun h => nomatch h
  success := fun _ => (List.exists_mem_of_ne_nil calls hne).imp fun c hc => ⟨hc, h c hc⟩
  partly := fun h => nomatch h
  late := by
    rintro - ⟨c, hc, hfailed⟩
    rw [h c hc] at hfailed
    cases hfailed

theorem exists_failed_of_all (hne : calls ≠ []) (h : ∀ c ∈ calls, c.succeeded = false) :
    ∃ c ∈ calls, c.succeeded = false :=
  (List.exists_mem_of_ne_nil calls hne).imp fun c hc => ⟨hc, h c hc⟩

theorem fits_of_partly (hsome : ∃ c ∈ calls, c.succeeded = true)
    (hfailed : ∃ c ∈ calls, c.succeeded = false)
    (h : strategy = .priorityOrder ∨ strategy = .mergeResults ∨ strategy = .allParallel) :
    Fits strategy calls .partly data where
  failure := fun h => nomatch h
  success := fun _ => hsome
  partly := fun _ => ⟨hfailed, h⟩
  late := fun h => nomatch h

/-- `late` is the status of a success that comes after failures. -/
theorem ofFirst_fits {late : Status} (hne : calls ≠ []) (hs : ∀ c ∈ calls, c.IsSettled)
    (hlate : strategy = .firstSuccess ∧ late = .success ∨
      strategy = .priorityOrder ∧ late = .partly)
    (h : ofFirst late calls = (status, data)) : Fits strategy calls status data := by
  rcases ofFirst_eq hs h with ⟨hall, rfl, rfl⟩ | ⟨hsome, ⟨hall, rfl⟩ | ⟨hfailed, rfl⟩⟩
  · exact fits_of_failure (exists_failed_of_all hne hall)
  · exact fits_of_success hne hall
  · rcases hlate with ⟨hfirst, rfl⟩ | ⟨hpriority, rfl⟩
    · exact {
        failure := fun h => nomatch h
        success := fun _ => hsome
        partly := fun h => nomatch h
        late := fun _ _ => hfirst }
    · exact fits_of_partly hsome hfailed (.inl hpriority)

theorem ofAll_fits {strict : Bool} {combine : List Source → Json} (hne : calls ≠ [])
    (hs : ∀ c ∈ calls, c.IsSettled)
    (hstrategy : strategy = .mergeResults ∨ strategy = .allParallel)
    (h : ofAll strict combine calls = (status, data)) : Fits strategy calls status data := by
  rcases ofAll_eq hs h with ⟨hall | ⟨-, hfailed⟩, rfl, rfl⟩ |
    ⟨hsome, -, -, ⟨hall, rfl⟩ | ⟨hfailed, rfl⟩⟩
  · exact fits_of_failure (exists_failed_of_all hne hall)
  · exact fits_of_failure hfailed
  · exact fits_of_success hne hall
  · exact fits_of_partly hsome hfailed (.inr hstrategy)

theorem ofChain_fits {body : Option Json} (hne : calls ≠ [])
    (h : ofChain body calls = (status, data)) : Fits strategy calls status data := by
  rcases ofChain_eq h with ⟨hfailed, rfl, rfl⟩ | ⟨hall, rfl, -⟩
  · exact fits_of_failure hfailed
  · exact fits_of_success hne hall

end Strategy

namespace Services
variable {sv : Services}

theorem outcome_fits (sv : Services) (route : Route) (r : Request) {calls : List Call}
    (hne : calls ≠ []) (hs : ∀ c ∈ calls, c.IsSettled) :
    route.strategy.Fits calls (sv.outcome route r calls).1 (sv.outcome route r calls).2 := by
  unfold outcome
  cases hstrategy : route.strategy with
  | firstSuccess => exact Strategy.ofFirst_fits hne hs (.inl ⟨rfl, rfl⟩) rfl
  | priorityOrder => exact Strategy.ofFirst_fits hne hs (.inr ⟨rfl, rfl⟩) rfl
  | mergeResults => exact Strategy.ofAll_fits hne hs (.inl rfl) rfl
  | allParallel => exact Strategy.ofAll_fits hne hs (.inr rfl) rfl
  | chain => exact Strategy.ofChain_fits hne rfl

/-- The result of a route that made calls, or crashed on the way. -/
theorem wellFormed_resultOf (sv : Services) (route : Route) (r : Request)
    {x : Except Crash (List Call)}
    (h : ∀ calls, x = .ok calls → calls ≠ [] ∧ ∀ c ∈ calls, c.IsSettled) :
    (sv.resultOf route r x).WellFormed := by
  rcases x with c | calls
  · exact Result.wellFormed_failed _ none
  · obtain ⟨hne, hs⟩ := h calls rfl
    have hfits := sv.outcome_fits route r hne hs
    have herrors := Call.errorTexts_eq_nil_iff hs
    have hfailed : (∃ c ∈ calls, c.succeeded = false) ↔ Call.errorTexts calls ≠ [] := by
      rw [Ne, herrors]
      simp
    exact {
      success_member := Result.member_success _
      errors_member := Result.member_errors _
      failure := fun h => (hfits.failure h).imp_right hfailed.mp
      success := hfits.success
      partly := fun h =>
        ⟨(hfits.partly h).1, hfits.success (fun hn => nomatch h.symm.trans hn), route, rfl,
          (hfits.partly h).2⟩
      clean := herrors.mp
      late := fun h he => ⟨route, rfl, hfits.late h (hfailed.mpr he)⟩ }

/-- A request that runs no route fails, and says why. -/
theorem execute_failed_of_not_runnable {path method : String}
    (h : sv.runnable? path method = none) (r : Request) (s : Router) :
    ∃ error route, (sv.execute path method r s).1 = .failed error route ∧
      ∀ x, route = some x → sv.routes path method = .found (some x) := by
  unfold runnable? at h
  unfold execute run
  rcases hr : sv.routes path method with (_ | route) | e | c
  · exact ⟨_, none, rfl, by simp⟩
  · rw [hr] at h
    by_cases hen : route.isEnabled = true
    · by_cases hm : route.mappings.isEmpty = true
      · exact ⟨_, some route, by simp [hen, hm]; rfl, by simp⟩
      · simp [hen, hm] at h
    · exact ⟨_, some route, by simp [hen]; rfl, by simp⟩
  · exact ⟨_, none, rfl, by simp⟩
  · exact ⟨_, none, rfl, by simp⟩

theorem runnable?_eq_some {path method : String} {route : Route}
    (h : sv.runnable? path method = some route) :
    sv.routes path method = .found (some route) ∧ route.isEnabled = true ∧
      route.mappings ≠ [] := by
  unfold runnable? at h
  split at h
  · rename_i found hr
    by_cases hgood : (found.isEnabled && !found.mappings.isEmpty) = true
    · rw [if_pos hgood] at h
      cases h
      simp only [Bool.and_eq_true, Bool.not_eq_true', List.isEmpty_eq_false_iff] at hgood
      exact ⟨hr, hgood⟩
    · rw [if_neg hgood] at h
      cases h
  · cases h

/-- Every result is well-formed, whatever the router remembers and whatever crashes, and a route
that it names is the one that was found. -/
theorem execute_wellFormed (sv : Services) (path method : String) (r : Request) (s : Router) :
    (sv.execute path method r s).1.WellFormed ∧
      ∀ route, (sv.execute path method r s).1.route = some route →
        sv.routes path method = .found (some route) := by
  rcases hroute : sv.runnable? path method with _ | route
  · obtain ⟨error, route, hresult, hfound⟩ := execute_failed_of_not_runnable hroute r s
    rw [hresult]
    exact ⟨Result.wellFormed_failed error route, hfound⟩
  · obtain ⟨hfound, -, hm⟩ := runnable?_eq_some hroute
    rw [(execute_of_runnable hroute r s).2]
    rcases hx : (sv.trail route r).runOn s with ⟨x, t⟩
    refine ⟨sv.wellFormed_resultOf route r ?_, ?_⟩
    · rintro calls rfl
      obtain ⟨ps, g, -, -, rfl, htrailed⟩ := @trail_passes sv route r (s, []) calls t hx
      exact ⟨mt (fun hnil => htrailed.some_call (List.map_eq_nil_iff.mp hnil)) hm,
        htrailed.isSettled⟩
    · intro found hfound'
      rcases x with c | calls
      · cases hfound'
      · cases hfound'
        exact hfound

end Services
end Switchboard
