import Switchboard.Execution.Router
import Switchboard.Proofs.Execution.Abreast
import Switchboard.Proofs.Execution.Calls

/-! Runs of a router, and the history of all begins and ends of calls in a run. The history is noted
by the strategies themselves, run on calls that write their begins and ends down. -/
namespace Switchboard

/-- What may happen to a router: its clock is set, or it gets a request. -/
inductive Step where
  | clock (now : Int)
  | request (path method : String) (r : Request)

/-- A call that was begun: of which mapping, for which request and with which body, and the router
that it found. -/
structure Event where
  mapping : Mapping
  request : Request
  body : Option Json
  before : Router

namespace Event

/-- How the call was begun, and the router that this left. -/
def begun (sv : Services) (e : Event) : Except Crash (Progress Pending) × Router :=
  (sv.begin e.mapping e.request e.body).runOn e.before

/-- What comes of the call if it is waited for, and the router that this leaves. -/
def outcome (sv : Services) (e : Event) : Except Crash Call × Router :=
  (sv.call e.mapping e.request e.body).runOn e.before

/-- What calls are told apart by where answers are kept. No body is the same as null. -/
def tuple (e : Event) : String × String × Json × Json :=
  (e.mapping.id, Text.upperString e.request.method, e.request.queryJson, e.body.getD .null)

def key? (e : Event) : Option String := e.mapping.key? e.request e.body

/-- The turn in which the call is ended, if nothing crashes; zero is at once. -/
def turn (sv : Services) (e : Event) : Nat :=
  match (e.begun sv).1 with
  | .ok (.waiting p) => p.turn
  | _ => 0

/-- The call ended so, at once or when it had waited. -/
inductive Ends (sv : Services) (e : Event) (c : Call) : Prop
  | atOnce (h : (e.begun sv).1 = .ok (.done c))
  | later {p : Pending} {s : Router} (h : (e.begun sv).1 = .ok (.waiting p))
    (hend : ((sv.finish p).runOn s).1 = .ok c)

end Event

/-- Calls with the same key are not told apart. -/
def Collisionless (es : List Event) : Prop :=
  ∀ e ∈ es, ∀ f ∈ es, ∀ k, e.key? = some k → f.key? = some k → e.tuple = f.tuple

theorem collisionless_of_tuple {es : List Event} {t : String × String × Json × Json}
    (ht : ∀ e ∈ es, e.tuple = t) : Collisionless es := by
  intro e he f hf k _ _
  rw [ht e he, ht f hf]

/-- What happens to the calls of a router: one is begun, or one that has waited is ended. The router
is the one that this finds. -/
inductive Moment where
  | begun (e : Event)
  | ended (e : Event) (p : Pending) (before : Router)

namespace Moment

/-- The call, as it was begun. -/
def event : Moment → Event
  | begun e => e
  | ended e _ _ => e

def before : Moment → Router
  | begun e => e.before
  | ended _ _ s => s

def after (sv : Services) : Moment → Router
  | begun e => (e.begun sv).2
  | ended _ p s => ((sv.finish p).runOn s).2

/-- What the clock shows. -/
def time (sv : Services) (x : Moment) : Int := (sv.ticked x.before).now

/-- The call that is done with this. -/
def call? (sv : Services) : Moment → Option Call
  | begun e => (e.begun sv).1.toOption.bind Progress.call?
  | ended _ p s => ((sv.finish p).runOn s).1.toOption

/-- The calls that are begun in a history. -/
def begins (h : List Moment) : List Event :=
  h.filterMap fun
    | begun e => some e
    | ended _ _ _ => none

/-- The calls that are done in a history, in the order of their ends. -/
def ends (sv : Services) (h : List Moment) : List (Event × Call) :=
  h.filterMap fun x => (x.call? sv).map fun c => (x.event, c)

theorem mem_begins {h : List Moment} {e : Event} : e ∈ begins h ↔ .begun e ∈ h := by
  constructor
  · intro he
    obtain ⟨x, hx, hxe⟩ := List.mem_filterMap.mp he
    cases x with
    | begun f =>
      cases hxe
      exact hx
    | ended f p s => cases hxe
  · exact fun he => List.mem_filterMap.mpr ⟨.begun e, he, rfl⟩

theorem mem_ends {sv : Services} {h : List Moment} {e : Event} {c : Call} :
    (e, c) ∈ ends sv h ↔ ∃ x ∈ h, x.call? sv = some c ∧ x.event = e := by
  simp only [ends, List.mem_filterMap, Option.map_eq_some_iff, Prod.mk.injEq, exists_eq_right_right]

end Moment

/-- What happens to a call that is waited for: it is begun, and ended if it has waited. -/
def Event.moments (sv : Services) (e : Event) : List Moment :=
  .begun e :: match (e.begun sv).1 with
    | .ok (.waiting q) => [.ended e q (e.begun sv).2]
    | _ => []

/-- What is known of a call that waits, and the rest of it. -/
def Progress.map {φ ψ : Type} (f : φ → ψ) : Progress φ → Progress ψ
  | done c => done c
  | waiting a => waiting (f a)

namespace Services

/-- The way to call mappings for a request where each begin and each end of a call is written down
behind those before it. -/
def noted (sv : Services) (r : Request) : Caller (Router × List Moment) (Event × Pending) where
  begin m body := Effect.ofRun fun p =>
    let e : Event := ⟨m, r, body, p.1⟩
    ((e.begun sv).1.map (Progress.map fun q => (e, q)), (e.begun sv).2, p.2 ++ [.begun e])
  turn q := q.2.turn
  finish q := Effect.ofRun fun p =>
    (((sv.finish q.2).runOn p.1).1, ((sv.finish q.2).runOn p.1).2, p.2 ++ [.ended q.1 q.2 p.1])

/-- The route that a request runs, if there is one that may run. -/
def runnable? (sv : Services) (path method : String) : Option Route :=
  match sv.routes path method with
  | .found (some route) => if route.isEnabled && !route.mappings.isEmpty then some route else none
  | _ => none

/-- A router after a step, and all begins and ends of calls up to then. -/
def note (sv : Services) (p : Router × List Moment) : Step → Router × List Moment
  | .clock now => ({ p.1 with now }, p.2)
  | .request path method r =>
    ((sv.execute path method r p.1).2,
      match sv.runnable? path method with
      | some route => ((Strategy.trail (sv.noted r) route r.body).runOn p).2.2
      | none => p.2)

/-- All begins and ends of calls in a run that begins with a new router. -/
def history (sv : Services) (steps : List Step) : List Moment :=
  (steps.foldl sv.note (.start sv.settings, [])).2

/-- The results of a run. -/
def results (sv : Services) : List Step → Router → List Result
  | [], _ => []
  | .clock now :: steps, s => sv.results steps { s with now }
  | .request path method r :: steps, s =>
    (sv.execute path method r s).1 :: sv.results steps (sv.execute path method r s).2

variable {sv : Services}

theorem runOn_noted_begin (sv : Services) (r : Request) (m : Mapping) (body : Option Json)
    (p : Router × List Moment) :
    ((sv.noted r).begin m body).runOn p =
      (((sv.begin m r body).runOn p.1).1.map (Progress.map fun q => (⟨m, r, body, p.1⟩, q)),
        ((sv.begin m r body).runOn p.1).2, p.2 ++ [.begun ⟨m, r, body, p.1⟩]) := rfl

theorem runOn_noted_finish (sv : Services) (r : Request) (q : Event × Pending)
    (p : Router × List Moment) :
    ((sv.noted r).finish q).runOn p = (((sv.finish q.2).runOn p.1).1,
      ((sv.finish q.2).runOn p.1).2, p.2 ++ [.ended q.1 q.2 p.1]) := rfl

/-- Writing begins and ends down does not change them. -/
theorem noted_goesAlong (sv : Services) (r : Request) :
    (sv.noted r).GoesAlong (sv.caller r) (fun _ => True) (fun p s => p.1 = s) Eq
      (fun q p => q.2 = p) fun _ _ => False where
  agree := by
    rintro c _ rfl
    exact ⟨rfl, rfl⟩
  turn := by
    rintro q _ rfl
    rfl
  begin := by
    rintro m body p _ rfl -
    have hcaller : (sv.caller r).begin m body = sv.begin m r body := rfl
    rw [runOn_noted_begin, hcaller]
    rcases (sv.begin m r body).runOn p.1 with ⟨c | (c | q), t⟩
    · exact ⟨rfl, rfl⟩
    · exact ⟨.done rfl, rfl⟩
    · exact ⟨.waiting rfl trivial, rfl⟩
  finish := by
    rintro q _ rfl p _ rfl -
    have hcaller : (sv.caller r).finish q.2 = sv.finish q.2 := rfl
    rw [runOn_noted_finish, hcaller]
    exact ⟨.refl _, rfl⟩
  ahead := fun _ _ h => h.elim
  begin_spoils := fun _ _ _ hn => absurd trivial hn
  finish_spoils := fun _ _ hn => absurd trivial hn

/-- A trail whose begins and ends are written down has the answers of the trail and leaves the
router that the trail leaves. -/
theorem noted_trail (sv : Services) (route : Route) (r : Request) (p : Router × List Moment) :
    ((Strategy.trail (sv.noted r) route r.body).runOn p).1 = ((sv.trail route r).runOn p.1).1 ∧
      ((Strategy.trail (sv.noted r) route r.body).runOn p).2.1 =
        ((sv.trail route r).runOn p.1).2 := by
  obtain ⟨hagree, hstate⟩ := (sv.noted_goesAlong r).trail route r.body p p.1 rfl trivial
  rw [List.forall₂_eq_eq_eq] at hagree
  exact ⟨hagree.eq, hstate⟩

theorem run_of_runnable {path method : String} {route : Route}
    (h : sv.runnable? path method = some route) (r : Request) :
    sv.run path method r = sv.runRoute route r := by
  unfold runnable? at h
  unfold run
  split at h
  · rename_i found hr
    simp only [hr]
    by_cases hen : found.isEnabled = true
    · by_cases hm : found.mappings.isEmpty = true
      · simp [hm] at h
      · have heq : found = route := by simpa [hen, hm] using h
        simp [← heq, hen, hm]
    · simp [hen] at h
  · cases h

/-- A request that runs no route makes no call and leaves the router alone. -/
theorem execute_of_not_runnable {path method : String} (h : sv.runnable? path method = none)
    (r : Request) (s : Router) :
    (sv.execute path method r s).1.calls = [] ∧ (sv.execute path method r s).2 = s := by
  unfold runnable? at h
  unfold execute run
  rcases hr : sv.routes path method with (_ | route) | e | c
  · exact ⟨rfl, rfl⟩
  · rw [hr] at h
    by_cases hen : route.isEnabled = true
    · by_cases hm : route.mappings.isEmpty = true
      · simp [hen, hm, Result.failed]
      · simp [hen, hm] at h
    · simp [hen, Result.failed]
  · exact ⟨rfl, rfl⟩
  · exact ⟨rfl, rfl⟩

/-- What comes of the trail of a route. -/
def resultOf (sv : Services) (route : Route) (r : Request) : Except Crash (List Call) → Result
  | .error c => .failed ("Unexpected error: " ++ c.text)
  | .ok calls => ⟨(sv.outcome route r calls).1, (sv.outcome route r calls).2,
      Call.errorTexts calls, some route, calls⟩

/-- The router with an entry in the log. -/
def logged (sv : Services) (route : Route) (r : Request) (result : Result) (s : Router) : Router :=
  { s with entries := s.entries ++ [(.ofResult route r result s.now,
      sv.log s.entries (.ofResult route r result s.now))] }

/-- A route whose trail comes to its end has what comes of that, and logs it. -/
theorem runOn_runRoute (sv : Services) (route : Route) (r : Request) (s : Router) :
    (sv.runRoute route r).runOn s =
      match (sv.trail route r).runOn s with
      | (.error c, t) => (.error c, t)
      | (.ok calls, t) => (.ok (sv.resultOf route r (.ok calls)),
          sv.logged route r (sv.resultOf route r (.ok calls)) t) := by
  unfold runRoute
  rw [Effect.runOn_bind]
  rcases (sv.trail route r).runOn s with ⟨_ | _, _⟩ <;> rfl

/-- A request that runs a route has what comes of its trail, and leaves what the trail leaves with
an entry in the log. -/
theorem execute_of_runnable {path method : String} {route : Route}
    (h : sv.runnable? path method = some route) (r : Request) (s : Router) :
    (∃ entries, (sv.execute path method r s).2 =
      { ((sv.trail route r).runOn s).2 with entries }) ∧
    (sv.execute path method r s).1 =
      sv.resultOf route r ((sv.trail route r).runOn s).1 := by
  unfold execute
  rw [run_of_runnable h]
  unfold runRoute
  rcases Effect.runOn_bind_cases (sv.trail route r) _ s with ⟨c, t, hx, heq⟩ | ⟨calls, t, hx, heq⟩
  · rw [heq, hx]
    exact ⟨⟨t.entries, rfl⟩, rfl⟩
  · rw [heq, hx]
    exact ⟨⟨_, rfl⟩, rfl⟩

theorem note_of_not_runnable {path method : String} (h : sv.runnable? path method = none)
    (r : Request) (p : Router × List Moment) : sv.note p (.request path method r) = p := by
  simp only [note, h, (execute_of_not_runnable h r p.1).2]

theorem note_of_runnable {path method : String} {route : Route}
    (h : sv.runnable? path method = some route) (r : Request) (p : Router × List Moment) :
    sv.note p (.request path method r) = ((sv.execute path method r p.1).2,
      ((Strategy.trail (sv.noted r) route r.body).runOn p).2.2) := by
  simp only [note, h]

/-- What a call that is waited for writes down. -/
theorem written_noted_call (sv : Services) (r : Request) (m : Mapping) (body : Option Json)
    (p : Router × List Moment) :
    (((sv.noted r).call m body).runOn p).2.2 =
      p.2 ++ (⟨m, r, body, p.1⟩ : Event).moments sv := by
  have hbegun : (sv.begin m r body).runOn p.1 = (⟨m, r, body, p.1⟩ : Event).begun sv := rfl
  unfold Caller.call Event.moments
  rw [Effect.runOn_bind, runOn_noted_begin, hbegun]
  rcases (⟨m, r, body, p.1⟩ : Event).begun sv with ⟨c | (c | q), t⟩
  · rfl
  · rfl
  · show ((sv.noted r).finish (⟨m, r, body, p.1⟩, q)).runOn _ |>.2.2 = _
    rw [runOn_noted_finish, List.append_assoc]
    rfl

/-- A route with one mapping makes one call. -/
theorem note_of_singleton {path method : String} {route : Route} {m : Mapping}
    (h : sv.runnable? path method = some route) (hs : route.strategy = .firstSuccess)
    (hm : route.mappings = [m]) (r : Request) (p : Router × List Moment) :
    (sv.note p (.request path method r)).2 =
      p.2 ++ (⟨m, r, r.body, p.1⟩ : Event).moments sv := by
  rw [note_of_runnable h, ← sv.written_noted_call r m r.body p]
  unfold Strategy.trail
  rw [hs, hm]
  simp only [Strategy.callUntilSuccess]
  rcases Effect.runOn_bind_cases ((sv.noted r).call m r.body) _ p with
    ⟨x, q, hx, heq⟩ | ⟨c, q, hx, heq⟩
  · rw [heq, hx]
  · rw [heq, hx]
    by_cases hc : c.succeeded = true
    · rw [if_pos hc]
      rfl
    · rw [if_neg hc]
      rfl

theorem begins_of_singleton {path method : String} {route : Route} {m : Mapping}
    (h : sv.runnable? path method = some route) (hs : route.strategy = .firstSuccess)
    (hm : route.mappings = [m]) (r : Request) (p : Router × List Moment) :
    Moment.begins (sv.note p (.request path method r)).2 =
      Moment.begins p.2 ++ [⟨m, r, r.body, p.1⟩] := by
  rw [note_of_singleton h hs hm, Moment.begins, List.filterMap_append, Event.moments]
  rcases ((⟨m, r, r.body, p.1⟩ : Event).begun sv).1 with c | (c | q) <;> rfl

/-- What the clock and the log leave alone and each call of a route that runs keeps up, a step
preserves. -/
theorem note_preserves {I : Router × List Moment → Prop}
    {W : Event × Pending → Router × List Moment → Prop}
    (hclock : ∀ p now, I p → I ({ p.1 with now }, p.2))
    (hentries : ∀ p entries, I p → I ({ p.1 with entries }, p.2))
    (hkeeps : ∀ path method route, sv.runnable? path method = some route → ∀ r,
      (sv.noted r).Keeps route.mappings I W I)
    (step : Step) {p : Router × List Moment} (h : I p) : I (sv.note p step) := by
  cases step with
  | clock now => exact hclock p now h
  | request path method r =>
    rcases hroute : sv.runnable? path method with _ | route
    · rwa [note_of_not_runnable hroute]
    · rw [note_of_runnable hroute]
      have htrail := ((hkeeps path method route hroute r).trail r.body).preserves p h
      obtain ⟨entries, hs⟩ := (execute_of_runnable hroute r p.1).1
      rw [hs, ← (sv.noted_trail route r p).2]
      exact hentries _ entries htrail

theorem notes_preserve {I : Router × List Moment → Prop}
    (hnote : ∀ step p, I p → I (sv.note p step)) (steps : List Step) {p : Router × List Moment}
    (h : I p) : I (steps.foldl sv.note p) := by
  induction steps generalizing p with
  | nil => exact h
  | cons step steps ih => exact ih (hnote step p h)

theorem mem_note (sv : Services) (p : Router × List Moment) (step : Step) {x : Moment}
    (hx : x ∈ p.2) : x ∈ (sv.note p step).2 :=
  note_preserves (I := fun p => x ∈ p.2) (fun _ _ h => h) (fun _ _ h => h)
    (fun _ _ _ _ _ => .of_preserves (fun _ _ _ _ h => List.mem_append_left _ h)
      fun _ _ h => List.mem_append_left _ h) step hx

theorem mem_notes (sv : Services) (steps : List Step) {p : Router × List Moment} {x : Moment}
    (hx : x ∈ p.2) : x ∈ (steps.foldl sv.note p).2 :=
  notes_preserve (fun step p => sv.mem_note p step) steps hx

end Services
end Switchboard
