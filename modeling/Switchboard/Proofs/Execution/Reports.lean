import Switchboard.Proofs.Execution.Abreast
import Switchboard.Proofs.Execution.Calls

/-! Reports are written and never read: routers that differ in their reports alone go on alike,
whatever becomes of what the sinks are offered. -/
namespace Switchboard
open Effect

/-- Routers that differ in nothing but what they have reported. -/
structure Router.Alike (s t : Router) : Prop where
  now : s.now = t.now
  responses : s.responses = t.responses
  transforms : s.transforms = t.transforms
  moments : s.moments = t.moments
  sent : s.sent = t.sent

theorem Router.Alike.refl (s : Router) : s.Alike s := ⟨rfl, rfl, rfl, rfl, rfl⟩

theorem Router.Alike.trans {s t u : Router} (h : s.Alike t) (h' : t.Alike u) : s.Alike u :=
  ⟨h.now.trans h'.now, h.responses.trans h'.responses, h.transforms.trans h'.transforms,
    h.moments.trans h'.moments, h.sent.trans h'.sent⟩

/-- Steps that go alike from routers that are alike. -/
def GoAlike {α : Type} (x y : Effect Router α) : Prop :=
  Simulates (fun _ => True) Router.Alike Eq x y

namespace GoAlike
variable {α β : Type}

theorem pure (a : α) : GoAlike (Pure.pure a) (Pure.pure a) := Simulates.pure rfl

theorem bind {x y : Effect Router α} {f g : α → Effect Router β} (hx : GoAlike x y)
    (hf : ∀ a, GoAlike (f a) (g a)) : GoAlike (x >>= f) (y >>= g) :=
  Simulates.bind hx (fun a _ hab => hab ▸ hf a) fun _ _ hn => absurd trivial hn

end GoAlike

/-- The same services with other sinks. -/
def Services.withSinks (sv : Services) (metrics : Telemetry.Sink Telemetry.Update)
    (log : Telemetry.Sink LogEntry) : Services := { sv with metrics, log }

theorem Router.Alike.ticked {s t : Router} (h : s.Alike t) (sv : Services)
    (metrics : Telemetry.Sink Telemetry.Update) (log : Telemetry.Sink LogEntry) :
    (sv.ticked s).Alike ((sv.withSinks metrics log).ticked t) := by
  refine ⟨?_, h.responses, h.transforms, congrArg (· + 1) h.moments, h.sent⟩
  show s.now + sv.drift s.moments = t.now + sv.drift t.moments
  rw [h.now, h.moments]

namespace Services
variable (sv : Services) (metrics : Telemetry.Sink Telemetry.Update)
  (log : Telemetry.Sink LogEntry)

theorem transform_goAlike (reference : Option String) (phase : Phase) (data : Json) :
    GoAlike (sv.transform reference phase data)
      ((sv.withSinks metrics log).transform reference phase data) := by
  cases reference with
  | none => exact .pure data
  | some reference =>
    intro s t h _
    have hrun : (Transform.apply sv.library s.now reference phase data).runOn s.transforms =
        (Transform.apply sv.library t.now reference phase data).runOn t.transforms := by
      rw [h.now, h.transforms]
    refine ⟨?_, h.now, h.responses, congrArg Prod.snd hrun, h.moments, h.sent⟩
    show Agree Eq ((Transform.apply sv.library s.now reference phase data).runOn s.transforms).1
      ((Transform.apply sv.library t.now reference phase data).runOn t.transforms).1
    rw [hrun]
    exact .refl _

theorem ask_goAlike (m : Mapping) (r : Request) (body : Option Json) :
    GoAlike (sv.ask m r body) ((sv.withSinks metrics log).ask m r body) := by
  unfold ask
  refine (sv.transform_goAlike metrics log _ _ _).bind fun shaped => ?_
  intro s t h _
  refine ⟨?_, h.now, h.responses, h.transforms, h.moments, congrArg (· ++ _) h.sent⟩
  simp only [Effect.runOn_bind, runOn_send, Effect.runOn_pure, h.sent]
  rfl

theorem receive_goAlike (m : Mapping) (reply : Reply) :
    GoAlike (sv.receive m reply) ((sv.withSinks metrics log).receive m reply) := by
  unfold receive
  cases reply with
  | crashed c => exact fun _ _ h _ => ⟨rfl, h⟩
  | failed e => exact .pure _
  | response x =>
    dsimp only
    cases x.data with
    | error e => exact .pure _
    | ok data => exact (sv.transform_goAlike metrics log _ _ _).bind fun v => .pure _

theorem begin_goAlike (m : Mapping) (r : Request) (body : Option Json) :
    GoAlike (sv.begin m r body) ((sv.withSinks metrics log).begin m r body) := by
  intro s t h _
  have hticked := h.ticked sv metrics log
  have hkept : ((sv.withSinks metrics log).ticked t).kept? (m.key? r body) =
      (sv.ticked s).kept? (m.key? r body) := by
    unfold Router.kept?
    rw [hticked.responses, hticked.now]
  obtain ⟨hagree, hend⟩ := sv.ask_goAlike metrics log m r body _ _ hticked trivial
  rw [runOn_begin, runOn_begin, hkept]
  cases (sv.ticked s).kept? (m.key? r body) with
  | some data =>
    exact ⟨rfl, hticked.now, hticked.responses, hticked.transforms, hticked.moments, hticked.sent⟩
  | none =>
    rcases hx : (sv.ask m r body).runOn (sv.ticked s) with ⟨x, u⟩
    rcases hy : ((sv.withSinks metrics log).ask m r body).runOn
      ((sv.withSinks metrics log).ticked t) with ⟨y, v⟩
    rw [hx, hy] at hagree hend
    obtain rfl : x = y := hagree.eq
    cases x with
    | error c => exact ⟨rfl, hend⟩
    | ok p => exact ⟨rfl, hend⟩

theorem finish_goAlike (p : Pending) :
    GoAlike (sv.finish p) ((sv.withSinks metrics log).finish p) := by
  intro s t h _
  have hticked := h.ticked sv metrics log
  obtain ⟨hagree, hend⟩ := sv.receive_goAlike metrics log p.mapping p.reply _ _ hticked trivial
  rw [runOn_finish, runOn_finish]
  rcases hx : (sv.receive p.mapping p.reply).runOn (sv.ticked s) with ⟨x, u⟩
  rcases hy : ((sv.withSinks metrics log).receive p.mapping p.reply).runOn
    ((sv.withSinks metrics log).ticked t) with ⟨y, v⟩
  rw [hx, hy] at hagree hend
  obtain rfl : x = y := hagree.eq
  rcases x with c | (e | ⟨code, data⟩)
  · exact ⟨rfl, hend⟩
  · exact ⟨rfl, hend.now, hend.responses, hend.transforms, hend.moments, hend.sent⟩
  · refine ⟨rfl, ?_⟩
    cases p.key with
    | none => exact ⟨hend.now, hend.responses, hend.transforms, hend.moments, hend.sent⟩
    | some k =>
      refine ⟨hend.now, ?_, hend.transforms, hend.moments, hend.sent⟩
      show u.responses.insert u.now k data = v.responses.insert v.now k data
      rw [hend.responses, hend.now]

theorem caller_goesAlong (r : Request) :
    (sv.caller r).GoesAlong ((sv.withSinks metrics log).caller r) (fun _ => True) Router.Alike Eq
      Eq fun _ _ => False where
  agree := by
    rintro c _ rfl
    exact ⟨rfl, rfl⟩
  turn := by
    rintro p _ rfl
    rfl
  begin := by
    intro m body
    refine (sv.begin_goAlike metrics log m r body).imp ?_
    rintro x _ rfl
    cases x with
    | done c => exact .done rfl
    | waiting p => exact .waiting rfl trivial
  finish := by
    rintro p _ rfl
    exact sv.finish_goAlike metrics log p
  ahead := fun _ _ h => h.elim
  begin_spoils := fun _ _ _ hn => absurd trivial hn
  finish_spoils := fun _ _ hn => absurd trivial hn

/-- The calls of a route, and what they leave, are alike for all sinks and all earlier reports. -/
theorem trail_goAlike (route : Route) (r : Request) :
    GoAlike (sv.trail route r) ((sv.withSinks metrics log).trail route r) := by
  intro s t h _
  have hsim := (sv.caller_goesAlong metrics log r).trail route r.body
  rw [List.forall₂_eq_eq_eq] at hsim
  exact hsim s t h trivial

end Services
end Switchboard
