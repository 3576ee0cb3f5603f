import Switchboard.Proofs.Execution.Calls
import Switchboard.Proofs.Transform.Memory

/-! Calls over a transport that replies to a request alike whenever it comes. What such a call has
for an answer where nothing is kept depends on nothing that is remembered. -/
namespace Switchboard

/-- Requests that an integration cannot tell apart. -/
structure Outbound.Alike (o p : Outbound) : Prop where
  method : o.method = p.method
  url : o.url = p.url
  headers : o.headers = p.headers
  body : o.body = p.body

namespace Services
variable {sv : Services}

/-- Replies, and the turns in which they come, depend on the method, the address, the headers and the
body of a request alone. -/
def Stateless (sv : Services) : Prop :=
  ∀ sent sent' o p, Outbound.Alike o p →
    sv.transport sent o = sv.transport sent' p ∧ sv.turn sent o = sv.turn sent' p

/-- The data that a reference makes, if there is one. -/
def made (sv : Services) (reference : Option String) (phase : Phase) (data : Json) :
    Except Crash Json :=
  match reference with
  | none => .ok data
  | some reference => Transform.made sv.library reference phase data

/-- What waits when a mapping has sent the first request of all. -/
def awaited (sv : Services) (m : Mapping) (r : Request) (body : Option Json) :
    Except Crash Pending := do
  let shaped ← sv.made m.requestTransform .request (body.getD .null)
  let o := Outbound.ofMapping sv.settings m r shaped.nonNull?
  return ⟨m, m.key? r body, sv.transport [] o, sv.turn [] o⟩

/-- What a mapping reads in a reply. -/
def read (sv : Services) (m : Mapping) (reply : Reply) :
    Except Crash (Except CallError (Nat × Json)) :=
  match reply with
  | .crashed c => .error c
  | .failed e => return .error (.transport e)
  | .response x =>
    match x.data with
    | .error e => return .error e
    | .ok data => return .ok (x.code, ← sv.made m.responseTransform .response data)

/-- What a mapping answers to the first request of all. -/
def answer (sv : Services) (m : Mapping) (r : Request) (body : Option Json) :
    Except Crash (Except CallError (Nat × Json)) := do
  sv.read m (← sv.awaited m r body).reply

/-- The call that comes of a reply. -/
def ended (sv : Services) (p : Pending) : Except Crash Call :=
  (sv.read p.mapping p.reply).map fun
    | .error e => p.mapping.failure e
    | .ok (code, data) => p.mapping.success (some code) false data

/-- The router remembers of transforms only what the library and the parser say. -/
def IsSound (sv : Services) (s : Router) : Prop := s.transforms.Sound sv.library

theorem transform_gives (sv : Services) (reference : Option String) (phase : Phase)
    (data : Json) :
    Effect.Gives sv.IsSound (sv.transform reference phase data)
      (sv.made reference phase data) := by
  cases reference with
  | none => exact .pure data
  | some reference =>
    intro s hs
    exact Transform.apply_gives sv.library s.now reference phase data s.transforms hs

theorem ask_gives (hsv : sv.Stateless) (m : Mapping) (r : Request) (body : Option Json) :
    Effect.Gives sv.IsSound (sv.ask m r body) (sv.awaited m r body) := by
  unfold ask awaited
  refine (sv.transform_gives _ _ _).bind fun shaped => ?_
  intro s hs
  obtain ⟨hreply, hturn⟩ := hsv s.sent [] _ _
    (⟨rfl, rfl, rfl, rfl⟩ : (Outbound.ofMapping sv.settings m r shaped.nonNull?).Alike _)
  simp only [Effect.runOn_bind, runOn_send, Effect.runOn_pure, hreply, hturn]
  exact ⟨rfl, hs⟩

/-- To receive is to read. -/
theorem receive_gives (sv : Services) (m : Mapping) (reply : Reply) :
    Effect.Gives sv.IsSound (sv.receive m reply) (sv.read m reply) := by
  unfold receive read
  cases reply with
  | crashed c => exact fun s hs => ⟨rfl, hs⟩
  | failed e => exact .pure _
  | response x =>
    dsimp only
    cases x.data with
    | error e => exact .pure _
    | ok data => exact (sv.transform_gives _ _ _).bind fun v => .pure _

/-- A call that finds nothing kept waits for what the first one would wait for. -/
theorem begin_fresh (hsv : sv.Stateless) {s : Router} (hs : sv.IsSound s) {m : Mapping}
    {r : Request} {body : Option Json} (hmiss : (sv.ticked s).kept? (m.key? r body) = none) :
    ((sv.begin m r body).runOn s).1 = (sv.awaited m r body).map .waiting ∧
      sv.IsSound ((sv.begin m r body).runOn s).2 ∧
      ((sv.begin m r body).runOn s).2.responses = s.responses := by
  obtain ⟨hawaited, hsound⟩ := ask_gives hsv m r body (sv.ticked s) hs
  rw [← hawaited, runOn_begin, hmiss]
  rcases ha : (sv.ask m r body).runOn (sv.ticked s) with ⟨c | p, t⟩
  · rw [ha] at hsound
    exact ⟨rfl, hsound, (ask_eq_error ha).responses⟩
  · obtain ⟨o, -, hsends, -⟩ := ask_eq_ok ha
    rw [ha] at hsound
    exact ⟨rfl, hsound, hsends.responses⟩

/-- A call ends with what comes of its reply, and keeps nothing but its own data. -/
theorem finish_fresh {s : Router} (hs : sv.IsSound s) (p : Pending) :
    ((sv.finish p).runOn s).1 = sv.ended p ∧ sv.IsSound ((sv.finish p).runOn s).2 ∧
      ∀ k v, (k, v) ∈ ((sv.finish p).runOn s).2.responses.entries →
        (k, v) ∈ s.responses.entries ∨
          p.key = some k ∧ ∃ code, sv.read p.mapping p.reply = .ok (.ok (code, v.value)) := by
  obtain ⟨hread, hsound⟩ := sv.receive_gives p.mapping p.reply (sv.ticked s) hs
  rw [ended, ← hread, runOn_finish]
  rcases hr : (sv.receive p.mapping p.reply).runOn (sv.ticked s) with ⟨c | (e | ⟨code, data⟩), t⟩
  all_goals
    have hresponses : t.responses = s.responses := (sends_of_receive hr).responses
    rw [hr] at hsound
  · exact ⟨rfl, hsound, fun k v hv => .inl (hresponses ▸ hv)⟩
  · exact ⟨rfl, hsound, fun k v hv => .inl (hresponses ▸ hv)⟩
  · cases hkey : p.key with
    | none => exact ⟨rfl, hsound, fun k v hv => .inl (hresponses ▸ hv)⟩
    | some l =>
      refine ⟨rfl, hsound, ?_⟩
      intro k v hv
      rcases Expiring.mem_of_mem_insert hv with ⟨rfl, rfl⟩ | hv
      · exact .inr ⟨rfl, code, rfl⟩
      · exact .inl (hresponses ▸ hv)

end Services
end Switchboard
