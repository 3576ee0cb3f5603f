import Switchboard.Proofs.Execution.Calls
import Switchboard.Proofs.Execution.Trail
import Switchboard.Proofs.Rule.Steps

/-! Executions whose collaborators do not crash come to their end: nothing in the router itself
crashes. What becomes of reports does not matter. -/
namespace Switchboard
open Effect

namespace Transform
variable {lib : Library}

theorem express_finishes (s : String) (data : Json) : Finishes (express s data) := by
  intro m
  unfold express
  simp only [runOn_bind, runOn_get, runOn_set]
  cases (m.parsed.evaluate s data).1 with
  | ok v => exact ⟨_, _, rfl⟩
  | error e => exact ⟨_, _, rfl⟩

theorem resolve_finishes (now : Int) (name : String) : Finishes (resolve lib now name) := by
  intro m
  unfold resolve
  rw [runOn_bind, runOn_get]
  cases hget : m.found.get? now name with
  | some t =>
    simp only [hget]
    exact ⟨_, _, rfl⟩
  | none =>
    simp only [hget]
    cases lib.find name with
    | ok t => exact ⟨_, _, rfl⟩
    | error e => exact ⟨_, _, rfl⟩

variable (h : ∀ rules record c, Rule.applyAll lib.handlers rules record ≠ .error c)
include h

theorem run_finishes (t : Transform) (data : Json) : Finishes (run lib t data) := by
  have hrules : ∀ v : Json, Finishes (if t.rules.isEmpty then pure v
      else Effect.ofExcept (Rule.applyAll lib.handlers t.rules v) : Effect Memory Json) := by
    intro v m
    by_cases hr : t.rules.isEmpty = true
    · rw [if_pos hr]
      exact ⟨v, m, rfl⟩
    · rw [if_neg hr]
      cases ha : Rule.applyAll lib.handlers t.rules v with
      | ok w => exact ⟨w, m, rfl⟩
      | error c => exact absurd ha (h t.rules v c)
  unfold run
  cases t.expression with
  | none =>
    refine (Finishes.pure (some data)).bind fun o => ?_
    cases o with
    | none => exact .pure _
    | some v => exact hrules v
  | some s =>
    refine (express_finishes s data).bind fun o => ?_
    cases o with
    | none => exact .pure _
    | some v => exact hrules v

theorem apply_finishes (now : Int) (reference : String) (phase : Phase) (data : Json) :
    Finishes (apply lib now reference phase data) := by
  unfold apply
  by_cases hinline : isInline reference = true
  · rw [if_pos hinline]
    exact (express_finishes reference data).bind fun v => .pure _
  · rw [if_neg hinline]
    refine (resolve_finishes now reference).bind fun o => ?_
    cases o with
    | none => exact .pure _
    | some t =>
      by_cases hphase : t.phase.allows phase = true
      · simp only [hphase, ite_true]
        exact run_finishes h t data
      · simp only [hphase]
        exact .pure _

end Transform

namespace Services
variable {sv : Services}

/-- Neither the route store nor the transport nor any list of rules crashes. -/
structure IsCalm (sv : Services) : Prop where
  route : ∀ path method c, sv.routes path method ≠ .crashed c
  reply : ∀ sent o c, sv.transport sent o ≠ .crashed c
  rules : ∀ rules record c, Rule.applyAll sv.library.handlers rules record ≠ .error c

namespace IsCalm
variable (h : sv.IsCalm)
include h

theorem transform_finishes (reference : Option String) (phase : Phase) (data : Json) :
    Finishes (sv.transform reference phase data) := by
  cases reference with
  | none => exact .pure _
  | some reference =>
    refine Finishes.bind (fun s => ⟨s, s, rfl⟩) fun s => ?_
    exact (Transform.apply_finishes h.rules s.now reference phase data).within

/-- A request goes out without a crash, and what comes back is none. -/
theorem ask_leads (m : Mapping) (r : Request) (body : Option Json) :
    Leads (fun _ => True) (sv.ask m r body) (fun p _ => ∀ c, p.reply ≠ .crashed c)
      fun _ => False := by
  unfold ask
  refine (h.transform_finishes _ _ _).leads.bind fun shaped => ?_
  rintro s -
  exact .inl ⟨_, _, rfl, h.reply _ _⟩

theorem receive_finishes (m : Mapping) {reply : Reply} (hreply : ∀ c, reply ≠ .crashed c) :
    Finishes (sv.receive m reply) := by
  unfold receive
  cases reply with
  | crashed c => exact absurd rfl (hreply c)
  | failed e => exact .pure _
  | response x =>
    dsimp only
    cases x.data with
    | error e => exact .pure _
    | ok data => exact (h.transform_finishes _ _ _).bind fun v => .pure _

/-- A call is begun without a crash, and waits for none. -/
theorem begin_leads (m : Mapping) (r : Request) (body : Option Json) :
    Leads (fun _ => True) (sv.begin m r body)
      (fun x _ => ∀ p, x = .waiting p → ∀ c, p.reply ≠ .crashed c) fun _ => False := by
  rintro s -
  rw [runOn_begin]
  cases (sv.ticked s).kept? (m.key? r body) with
  | some data => exact .inl ⟨_, _, rfl, by simp⟩
  | none =>
    rcases h.ask_leads m r body (sv.ticked s) trivial with ⟨p, t, hp, hreply⟩ | ⟨c, t, -, ht⟩
    · rw [hp]
      refine .inl ⟨_, _, rfl, ?_⟩
      rintro _ ⟨⟩
      exact hreply
    · exact ht.elim

theorem finish_finishes {p : Pending} (hp : ∀ c, p.reply ≠ .crashed c) :
    Finishes (sv.finish p) := by
  intro s
  rw [runOn_finish]
  obtain ⟨x, t, hx⟩ := h.receive_finishes p.mapping hp (sv.ticked s)
  rw [hx]
  rcases x with e | ⟨code, data⟩
  · exact ⟨_, _, rfl⟩
  · exact ⟨_, _, rfl⟩

/-- Calls that wait do so for no crash. -/
theorem keeps (r : Request) (ms : List Mapping) :
    (sv.caller r).Keeps ms (fun _ => True) (fun p _ => ∀ c, p.reply ≠ .crashed c)
      fun _ => False where
  begin := by
    intro m _ body fs s hs
    rcases h.begin_leads m r body s trivial with ⟨x, t, hx, hreply⟩ | ⟨c, t, -, ht⟩
    · refine .inl ⟨x, t, hx, trivial, fun f hf => ?_⟩
      rcases List.mem_append.mp hf with hf | hf
      · exact hreply f (Progress.waiting?_eq_some.mp (Option.mem_toList.mp hf))
      · exact hs.2 f hf
    · exact ht.elim
  finish := by
    intro fs f hf s hs
    obtain ⟨c, t, hc⟩ := h.finish_finishes (hs.2 f hf) s
    exact .inl ⟨c, t, hc, trivial, hs.2⟩

theorem runRoute_finishes (route : Route) (r : Request) : Finishes (sv.runRoute route r) := by
  have hlog : ∀ result, Finishes (sv.logResult route r result) := by
    intro result
    unfold logResult
    exact Finishes.bind (fun s => ⟨s, s, rfl⟩) fun s => .bestEffort _
  unfold runRoute
  refine ((h.keeps r route.mappings).trail r.body).finishes.bind fun calls => ?_
  exact (hlog _).bind fun _ => .pure _

theorem run_finishes (path method : String) (r : Request) : Finishes (sv.run path method r) := by
  unfold run
  cases hroute : sv.routes path method with
  | crashed c => exact absurd hroute (h.route path method c)
  | failed e => exact .pure _
  | found o =>
    cases o with
    | none => exact .pure _
    | some route =>
      dsimp only
      split
      · exact .pure _
      · split
        · exact .pure _
        · exact h.runRoute_finishes route r

end IsCalm
end Services
end Switchboard
