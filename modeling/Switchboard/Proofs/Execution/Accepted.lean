import Switchboard.Configuration.File
import Switchboard.Proofs.Execution.Applied
import Switchboard.Proofs.Execution.Provenance
import Switchboard.Proofs.Execution.Results
import Switchboard.Proofs.Expression.Dotted

/-! What a configuration that was accepted cannot run into. No route that runs is without mappings,
and no text is parsed that is not that of an expression, in any call of any run. -/
namespace Switchboard

theorem Configuration.validated_eq_ok_iff {c d : Configuration} :
    c.validated = .ok d ↔ d = c ∧ c.Valid := by
  rw [← problems_eq_nil_iff]
  unfold validated
  cases c.problems with
  | nil => simp [eq_comm]
  | cons p ps => simp

theorem Route.mem_of_find? {routes : List Route} {path method : String} {route : Route}
    (h : find? routes path method = some route) : route ∈ routes := by
  rcases Option.or_eq_some_iff.mp h with h | ⟨-, h⟩
  · exact (List.mem_filter.mp (List.mem_of_find?_eq_some h)).1
  · exact (List.mem_filter.mp (List.mem_of_mem_head? h)).1

/-- The services look up routes and transforms in the configuration. -/
structure Services.Over (sv : Services) (c : Configuration) : Prop where
  routes : ∀ path method, sv.routes path method = .found (Route.find? c.routes path method)
  library : sv.library.Over c.transforms

/-- The failure of a route for want of mappings. -/
def Result.LacksMappings (result : Result) : Prop :=
  result.calls = [] ∧ ∃ id, "Route '" ++ id ++ "' has no integration mappings" ∈ result.errors

theorem Result.not_lacksMappings_failed {error : String} {route : Option Route}
    (h : error.toList.head? ≠ some 'R' ∨ error.toList.getLast? ≠ some 's') :
    ¬ (failed error route).LacksMappings := by
  rintro ⟨-, id, hid⟩
  obtain rfl := List.mem_singleton.mp hid
  rcases h with h | h
  · exact h (by simp)
  · exact h (by simp [List.getLast?_cons])

namespace Services
variable {sv : Services} {c : Configuration}

theorem not_lacksMappings_execute {path method : String}
    (h : ∀ route, sv.routes path method = .found (some route) → route.mappings ≠ [])
    (r : Request) (s : Router) : ¬ (sv.execute path method r s).1.LacksMappings := by
  have hcrash : ∀ (text : String) route,
      ¬ (Result.failed ("Unexpected error: " ++ text) route).LacksMappings :=
    fun text route => Result.not_lacksMappings_failed (.inl (by simp))
  rcases hroute : sv.runnable? path method with _ | route
  · unfold runnable? at hroute
    unfold execute run
    rcases hr : sv.routes path method with (_ | route) | e | x
    · exact Result.not_lacksMappings_failed (.inl (by simp))
    · have hm : route.mappings.isEmpty = false := by simpa using h route hr
      have hen : route.isEnabled = false := by simpa [hr, hm] using hroute
      simp only [hen]
      exact Result.not_lacksMappings_failed (.inr (by simp [List.getLast?_cons]))
    · exact hcrash _ _
    · exact hcrash _ _
  · rw [(execute_of_runnable hroute r s).2]
    rcases ((sv.trail route r).runOn s).1 with x | calls
    · exact hcrash _ _
    · rintro ⟨hcalls, id, hid⟩
      obtain rfl : calls = [] := hcalls
      exact absurd hid List.not_mem_nil

/-- Each result of a run is that of a request to a router. -/
theorem exists_execute_of_mem_results {steps : List Step} {s : Router} {result : Result}
    (h : result ∈ sv.results steps s) :
    ∃ path method r t, result = (sv.execute path method r t).1 := by
  induction steps generalizing s with
  | nil => exact absurd h List.not_mem_nil
  | cons step steps ih =>
    cases step with
    | clock now => exact ih h
    | request path method r =>
      rcases List.mem_cons.mp h with rfl | h
      · exact ⟨path, method, r, s, rfl⟩
      · exact ih h

/-- A mapping of the configuration is called, and what was remembered is so. -/
def Located (sv : Services) (c : Configuration) (x : Moment) : Prop :=
  sv.IsSound x.before ∧ ∃ route ∈ c.routes, x.mapping ∈ route.mappings

theorem noted_keeps_located {route : Route} (hroute : route ∈ c.routes) (r : Request) :
    (sv.noted r).Keeps route.mappings (Effect.Along sv.IsSound (sv.Located c))
      (fun q _ => ∃ route ∈ c.routes, q.2.mapping ∈ route.mappings) (Effect.Along sv.IsSound (sv.Located c)) where
  begin := by
    rintro m hm body fs ⟨s, h⟩ ⟨⟨hs, hh⟩, hfs⟩
    have hnext : Effect.Along sv.IsSound (sv.Located c)
        (((sv.begin m r body).runOn s).2, h ++ [.begun ⟨m, r, body, s⟩]) :=
      ⟨@Moment.isSound_after sv (.begun ⟨m, r, body, s⟩) hs,
        List.forall_mem_append.mpr ⟨hh, List.forall_mem_singleton.mpr ⟨hs, route, hroute, hm⟩⟩⟩
    rw [runOn_noted_begin]
    rcases hx : (sv.begin m r body).runOn s with ⟨x | (d | p), t⟩
    · rw [hx] at hnext
      exact .inr ⟨x, _, rfl, hnext⟩
    · rw [hx] at hnext
      exact .inl ⟨_, _, rfl, hnext, hfs⟩
    · rw [hx] at hnext
      obtain ⟨-, o, -, -, rfl⟩ := begin_eq_waiting hx
      exact .inl ⟨_, _, rfl, hnext, List.forall_mem_cons.mpr ⟨⟨route, hroute, hm⟩, hfs⟩⟩
  finish := by
    rintro fs ⟨e, p⟩ hf ⟨s, h⟩ ⟨⟨hs, hh⟩, hfs⟩
    have hnext : Effect.Along sv.IsSound (sv.Located c)
        (((sv.finish p).runOn s).2, h ++ [.ended e p s]) :=
      ⟨@Moment.isSound_after sv (.ended e p s) hs, List.forall_mem_append.mpr
        ⟨hh, List.forall_mem_singleton.mpr ⟨hs, hfs _ hf⟩⟩⟩
    rw [runOn_noted_finish]
    rcases hx : (sv.finish p).runOn s with ⟨x | d, t⟩
    · rw [hx] at hnext
      exact .inr ⟨x, _, rfl, hnext⟩
    · rw [hx] at hnext
      exact .inl ⟨d, _, rfl, hnext, hfs⟩

theorem note_located (hsv : sv.Over c) (step : Step) (p : Router × List Moment)
    (h : Effect.Along sv.IsSound (sv.Located c) p) :
    Effect.Along sv.IsSound (sv.Located c) (sv.note p step) := by
  refine note_preserves (W := fun q _ => ∃ route ∈ c.routes, q.2.mapping ∈ route.mappings)
    (fun _ _ h => h) (fun _ _ h => h) ?_ step h
  intro path method route hroute r
  have hfound := (runnable?_eq_some hroute).1
  rw [hsv.routes] at hfound
  exact noted_keeps_located (Route.mem_of_find? (Lookup.found.inj hfound)) r

/-- Every call of a run is of a mapping of the configuration. -/
theorem located_of_mem_history (hsv : sv.Over c) {steps : List Step} {x : Moment}
    (hx : x ∈ sv.history steps) : sv.Located c x :=
  have hstart : sv.IsSound (.start sv.settings) := Transform.Memory.sound_empty _ _
  (notes_preserve (note_located hsv) steps (Effect.along_nil hstart)).2 x hx

/-- An inline reference that a call of a valid configuration applies parses. -/
theorem parses_of_mem_applications (hc : c.Valid) {x : Moment} (hx : sv.Located c x)
    {a : Transform.Application} (ha : a ∈ x.applications sv)
    (hinline : isInline a.reference = true) : Expression.Parses a.reference := by
  obtain ⟨hsound, route, hroute, hm⟩ := hx
  have hreference := (Moment.of_mem_applications hsound ha).2
  exact hc.references route hroute x.mapping hm a.reference
    (Configuration.mem_references.mp hreference) hinline

end Services

/-- A configuration is accepted exactly if it is valid, and then, in every run of services over it,
no result is the failure of a route without mappings, each text that a call parses is that of an
expression, and a transform does its work unless its name is unknown, disabled or meant for the
other phase, or its expression has no value: then it leaves its data as it is. -/
theorem accepted_runs (c : Configuration) :
    (∀ d, c.validated = .ok d ↔ d = c ∧ c.Valid) ∧
    (c.validated = .ok c → ∀ sv : Services, sv.Over c → ∀ steps : List Step,
      (∀ result ∈ sv.results steps (.start sv.settings), ¬ result.LacksMappings) ∧
      ∀ x ∈ sv.history steps, ∀ a ∈ x.applications sv,
        (∀ s ∈ a.compiled sv.library, Expression.Parses s) ∧
        (a.outcome sv.library = .ok a.data ∧
            Transform.Passes c.transforms a.reference a.phase a.data ∨
          Transform.Makes c.transforms sv.library.handlers a.reference a.phase a.data
            (a.outcome sv.library))) := by
  refine ⟨fun d => Configuration.validated_eq_ok_iff, fun haccepted sv hsv steps => ?_⟩
  have hc : c.Valid := (Configuration.validated_eq_ok_iff.mp haccepted).2
  constructor
  · intro result hresult
    obtain ⟨path, method, r, t, rfl⟩ := Services.exists_execute_of_mem_results hresult
    refine Services.not_lacksMappings_execute (fun route hroute => ?_) r t
    rw [hsv.routes] at hroute
    exact hc.mappings route (Route.mem_of_find? (Lookup.found.inj hroute))
  · intro x hx a ha
    have hlocated := Services.located_of_mem_history hsv hx
    have hsound := (Moment.of_mem_applications hlocated.1 ha).1
    have hinline := Services.parses_of_mem_applications hc hlocated ha
    exact ⟨Transform.Application.parses_of_compiled hc hsv.library hsound hinline,
      Transform.Application.outcome_cases hc hsv.library hsound hinline⟩

namespace Sample

/-- One mapping that takes a part of the body and of the response, one of them by a name. -/
def partMapping : Mapping :=
  { mapping "a" false false with requestTransform := some "$.id", responseTransform := some "part" }

def partConfiguration : Configuration where
  routes := [{ id := "r", name := "r", path := "/r", mappings := [partMapping] }]
  transforms := [{ name := "part", expression := some "$.id" }]

def partServices : Services := partConfiguration.services [] fun _ _ => .response ⟨200, none, ""⟩

def partSteps : List Step := [.request "/r" "GET" (get (some .null))]

def partCall : Event := ⟨partMapping, get (some .null), some .null, .start {}⟩

theorem parses_part : Expression.Parses "$.id" := by
  have htext : String.ofList (dotted ["id"]) = "$.id" := by decide
  exact ⟨_, htext ▸ Expression.parse_dotted (by decide) (by decide)⟩

theorem valid_partConfiguration : partConfiguration.Valid where
  routes := by decide
  mappings := by simp [partConfiguration]
  references := by
    intro r hr m hm s hs hinline
    obtain rfl := List.mem_singleton.mp hr
    obtain rfl := List.mem_singleton.mp hm
    rcases hs with hs | hs
    · exact Option.some.inj hs ▸ parses_part
    · rw [← Option.some.inj hs] at hinline
      exact absurd hinline (by decide)
  transforms := by decide
  expressions := by
    intro t ht s hs
    obtain rfl := List.mem_singleton.mp ht
    exact Option.some.inj hs ▸ parses_part

theorem over_partConfiguration : partServices.Over partConfiguration :=
  ⟨fun _ _ => rfl, fun _ => rfl⟩

end Sample

theorem accepted_runs_part :
    Sample.partServices.Over Sample.partConfiguration ∧
      Sample.partConfiguration.validated = .ok Sample.partConfiguration ∧
      .begun Sample.partCall ∈ Sample.partServices.history Sample.partSteps ∧
      Sample.partCall.opening Sample.partServices "$.id" ∈
        (Moment.begun Sample.partCall).applications Sample.partServices ∧
      ∀ s ∈ (Sample.partCall.opening Sample.partServices "$.id").compiled
          Sample.partServices.library, Expression.Parses s := by
  obtain ⟨hvalidated, hruns⟩ := accepted_runs Sample.partConfiguration
  have haccepted := (hvalidated _).mpr ⟨rfl, Sample.valid_partConfiguration⟩
  have hcall : .begun Sample.partCall ∈ Sample.partServices.history Sample.partSteps := by
    refine Moment.mem_begins.mp ?_
    unfold Services.history Sample.partSteps
    simp only [List.foldl]
    rw [Services.begins_of_singleton rfl rfl rfl]
    exact List.mem_singleton.mpr rfl
  have hopening := @Event.opening_mem_applications Sample.partServices Sample.partCall rfl _ rfl
  obtain ⟨-, happlied⟩ := hruns haccepted _ Sample.over_partConfiguration Sample.partSteps
  exact ⟨Sample.over_partConfiguration, haccepted, hcall, hopening,
    (happlied _ hcall _ hopening).1⟩

end Switchboard
