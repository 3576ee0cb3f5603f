import Switchboard.Execution.Router
import Switchboard.Proofs.Effect
import Switchboard.Proofs.Expiring

/-! What a single call does when it is begun and when it is ended: the answers that it may give and
the router that it leaves. -/
namespace Switchboard

/-- The router with data kept for a key, if there is one. -/
def Router.keeping (s : Router) (key : Option String) (data : Json) : Router :=
  match key with
  | none => s
  | some k => { s with responses := s.responses.insert s.now k data }

section Keeping
variable (s : Router) (key : Option String) (data : Json)

@[simp] theorem Router.sent_keeping : (s.keeping key data).sent = s.sent := by cases key <;> rfl

@[simp] theorem Router.updates_keeping : (s.keeping key data).updates = s.updates := by
  cases key <;> rfl

@[simp] theorem Router.entries_keeping : (s.keeping key data).entries = s.entries := by
  cases key <;> rfl

end Keeping

/-- The data that the router has for a key. -/
def Router.kept? (s : Router) (key : Option String) : Option Json :=
  key.bind (s.responses.get? s.now)

namespace Services

/-- The router as a moment of it begins. -/
def ticked (sv : Services) (s : Router) : Router :=
  { s with now := s.now + sv.drift s.moments, moments := s.moments + 1 }

section Ticked
variable (sv : Services) (s : Router)

@[simp] theorem responses_ticked : (sv.ticked s).responses = s.responses := rfl

@[simp] theorem transforms_ticked : (sv.ticked s).transforms = s.transforms := rfl

@[simp] theorem sent_ticked : (sv.ticked s).sent = s.sent := rfl

@[simp] theorem updates_ticked : (sv.ticked s).updates = s.updates := rfl

@[simp] theorem entries_ticked : (sv.ticked s).entries = s.entries := rfl

end Ticked

/-- The router with a report of a call. -/
def reported (sv : Services) (c : Call) (s : Router) : Router :=
  { s with updates := s.updates ++ [(c.update, sv.metrics s.updates c.update)] }

@[simp] theorem runOn_tick (sv : Services) (s : Router) :
    sv.tick.runOn s = (.ok (), sv.ticked s) := rfl

@[simp] theorem runOn_report (sv : Services) (c : Call) (s : Router) :
    (sv.report c).runOn s = (.ok (), sv.reported c s) := rfl

@[simp] theorem runOn_keep (key : Option String) (data : Json) (s : Router) :
    (keep key data).runOn s = (.ok (), s.keeping key data) := by
  cases key <;> rfl

@[simp] theorem runOn_kept? (key : Option String) (s : Router) :
    (Services.kept? key).runOn s = (.ok (s.kept? key), s) := rfl

/-- A call is begun with what is kept, and reported, or with a request. -/
theorem runOn_begin (sv : Services) (m : Mapping) (r : Request) (body : Option Json) (s : Router) :
    (sv.begin m r body).runOn s =
      match (sv.ticked s).kept? (m.key? r body) with
      | some data => (.ok (.done (m.success none true data)),
          sv.reported (m.success none true data) (sv.ticked s))
      | none =>
        match (sv.ask m r body).runOn (sv.ticked s) with
        | (.error c, t) => (.error c, t)
        | (.ok p, t) => (.ok (.waiting p), t) := by
  unfold begin
  simp only [Effect.runOn_bind, runOn_tick, runOn_kept?]
  rcases (sv.ticked s).kept? (m.key? r body) with _ | data
  · simp only [Effect.runOn_bind]
    rcases (sv.ask m r body).runOn (sv.ticked s) with ⟨_ | _, _⟩ <;> rfl
  · rfl

/-- A call that has waited is ended with what comes of the reply: data is kept, and the call is
reported. -/
theorem runOn_finish (sv : Services) (p : Pending) (s : Router) :
    (sv.finish p).runOn s =
      match (sv.receive p.mapping p.reply).runOn (sv.ticked s) with
      | (.error c, t) => (.error c, t)
      | (.ok (.error e), t) => (.ok (p.mapping.failure e), sv.reported (p.mapping.failure e) t)
      | (.ok (.ok (code, data)), t) =>
        (.ok (p.mapping.success (some code) false data),
          sv.reported (p.mapping.success (some code) false data) (t.keeping p.key data)) := by
  unfold finish
  simp only [Effect.runOn_bind, runOn_tick]
  rcases (sv.receive p.mapping p.reply).runOn (sv.ticked s) with ⟨_ | (_ | ⟨code, data⟩), t⟩
  · rfl
  · rfl
  · simp only [Effect.runOn_bind, runOn_keep, Effect.runOn_pure, runOn_report]

/-- The ways in which a call is begun. -/
theorem begin_cases {sv : Services} {m : Mapping} {r : Request} {body : Option Json}
    {s t : Router} {x : Progress Pending} (h : (sv.begin m r body).runOn s = (.ok x, t)) :
    (∃ data, (sv.ticked s).kept? (m.key? r body) = some data ∧
      x = .done (m.success none true data) ∧
      t = sv.reported (m.success none true data) (sv.ticked s)) ∨
    ∃ p, (sv.ticked s).kept? (m.key? r body) = none ∧
      (sv.ask m r body).runOn (sv.ticked s) = (.ok p, t) ∧ x = .waiting p := by
  rw [runOn_begin] at h
  rcases hk : (sv.ticked s).kept? (m.key? r body) with _ | data
  · rw [hk] at h
    rcases ha : (sv.ask m r body).runOn (sv.ticked s) with ⟨_ | p, u⟩
    · rw [ha] at h
      cases h
    · rw [ha] at h
      cases h
      exact .inr ⟨p, rfl, rfl, rfl⟩
  · rw [hk] at h
    cases h
    exact .inl ⟨data, rfl, rfl, rfl⟩

/-- The ways in which a call that has waited is ended. -/
theorem finish_cases {sv : Services} {p : Pending} {s t : Router} {c : Call}
    (h : (sv.finish p).runOn s = (.ok c, t)) :
    (∃ e u, (sv.receive p.mapping p.reply).runOn (sv.ticked s) = (.ok (.error e), u) ∧
      c = p.mapping.failure e ∧ t = sv.reported c u) ∨
    ∃ code data u,
      (sv.receive p.mapping p.reply).runOn (sv.ticked s) = (.ok (.ok (code, data)), u) ∧
      c = p.mapping.success (some code) false data ∧
      t = sv.reported c (u.keeping p.key data) := by
  rw [runOn_finish] at h
  rcases hr : (sv.receive p.mapping p.reply).runOn (sv.ticked s) with ⟨_ | (e | ⟨code, data⟩), u⟩
  · rw [hr] at h
    cases h
  · rw [hr] at h
    cases h
    exact .inl ⟨e, u, rfl, rfl, rfl⟩
  · rw [hr] at h
    cases h
    exact .inr ⟨code, data, u, rfl, rfl, rfl⟩

/-- A call that is waited for is begun, and done with that or ended next. -/
theorem call_cases {sv : Services} {m : Mapping} {r : Request} {body : Option Json} {s t : Router}
    {c : Call} (h : (sv.call m r body).runOn s = (.ok c, t)) :
    (sv.begin m r body).runOn s = (.ok (.done c), t) ∨
      ∃ p u, (sv.begin m r body).runOn s = (.ok (.waiting p), u) ∧
        (sv.finish p).runOn u = (.ok c, t) := by
  obtain ⟨x, u, hx, h⟩ := Effect.runOn_bind_eq_ok h
  cases x with
  | done d =>
    cases h
    exact .inl hx
  | waiting p => exact .inr ⟨p, u, hx, h⟩

/-- Transforms change what is remembered of transforms and nothing else. -/
theorem transform_frame (sv : Services) (reference : Option String) (phase : Phase) (data : Json)
    (s : Router) : ∃ m, ((sv.transform reference phase data).runOn s).2 =
      { s with transforms := m } := by
  cases reference with
  | none => exact ⟨s.transforms, rfl⟩
  | some reference => exact ⟨_, rfl⟩

/-- A request goes out, and the reply to it is settled. -/
theorem runOn_send (sv : Services) (o : Outbound) (s : Router) :
    (sv.send o).runOn s =
      (.ok (sv.transport s.sent o, sv.turn s.sent o), { s with sent := s.sent ++ [o] }) := rfl

end Services

/-- From `s` to `t` the requests `os` have gone out, and nothing else has changed but what is
remembered of transforms. -/
structure Router.Sends (s t : Router) (os : List Outbound) : Prop where
  now : t.now = s.now
  responses : t.responses = s.responses
  moments : t.moments = s.moments
  updates : t.updates = s.updates
  entries : t.entries = s.entries
  sent : t.sent = s.sent ++ os

theorem Router.Sends.trans {s t u : Router} {os ps : List Outbound} (h : s.Sends t os)
    (h' : t.Sends u ps) : s.Sends u (os ++ ps) where
  now := by rw [h'.now, h.now]
  responses := by rw [h'.responses, h.responses]
  moments := by rw [h'.moments, h.moments]
  updates := by rw [h'.updates, h.updates]
  entries := by rw [h'.entries, h.entries]
  sent := by rw [h'.sent, h.sent, List.append_assoc]

namespace Services

theorem transform_sends (sv : Services) (reference : Option String) (phase : Phase) (data : Json)
    (s : Router) : s.Sends ((sv.transform reference phase data).runOn s).2 [] := by
  obtain ⟨m, hm⟩ := sv.transform_frame reference phase data s
  rw [hm]
  exact ⟨rfl, rfl, rfl, rfl, rfl, by simp⟩

/-- What a mapping asks its integration for, from a router: the body is what the request transform
makes of the one at hand, and none if that is null. -/
def Asks (sv : Services) (m : Mapping) (r : Request) (body : Option Json) (s : Router)
    (o : Outbound) : Prop :=
  ∃ data t, (sv.transform m.requestTransform .request (body.getD .null)).runOn s = (.ok data, t) ∧
    o = .ofMapping sv.settings m r data.nonNull?

/-- From a router, a mapping asks for one request alone. -/
theorem Asks.unique {sv : Services} {m : Mapping} {r : Request} {body : Option Json} {s : Router}
    {o o' : Outbound} (h : sv.Asks m r body s o) (h' : sv.Asks m r body s o') : o = o' := by
  obtain ⟨data, u, hrun, rfl⟩ := h
  obtain ⟨data', u', hrun', rfl⟩ := h'
  rw [hrun] at hrun'
  cases hrun'
  rfl

/-- To ask is to send one request, and to wait for the reply to it. -/
theorem ask_eq_ok {sv : Services} {m : Mapping} {r : Request} {body : Option Json} {s t : Router}
    {p : Pending} (h : (sv.ask m r body).runOn s = (.ok p, t)) :
    ∃ o, sv.Asks m r body s o ∧ s.Sends t [o] ∧
      p = ⟨m, m.key? r body, sv.transport s.sent o, sv.turn s.sent o⟩ := by
  obtain ⟨shaped, u, hshaped, h⟩ := Effect.runOn_bind_eq_ok h
  have hbefore := sv.transform_sends m.requestTransform .request (body.getD .null) s
  rw [hshaped] at hbefore
  have hsent : u.sent = s.sent := by simpa using hbefore.sent
  have hsend : u.Sends t [.ofMapping sv.settings m r shaped.nonNull?] := by
    cases h
    exact ⟨rfl, rfl, rfl, rfl, rfl, rfl⟩
  refine ⟨_, ⟨shaped, u, hshaped, rfl⟩, hbefore.trans hsend, ?_⟩
  rw [← hsent]
  cases h
  rfl

/-- A crash while asking comes before the request is sent. -/
theorem ask_eq_error {sv : Services} {m : Mapping} {r : Request} {body : Option Json}
    {s t : Router} {c : Crash} (h : (sv.ask m r body).runOn s = (.error c, t)) : s.Sends t [] := by
  have hbefore := sv.transform_sends m.requestTransform .request (body.getD .null) s
  rcases Effect.runOn_bind_cases (sv.transform m.requestTransform .request (body.getD .null)) _ s
    with ⟨d, u, hu, heq⟩ | ⟨shaped, u, -, heq⟩
  · rw [hu] at hbefore
    rw [ask, heq] at h
    cases h
    exact hbefore
  · rw [ask, heq] at h
    cases h

/-- Nothing is sent where a reply is read. -/
theorem receive_sends (sv : Services) (m : Mapping) (reply : Reply) (s : Router) :
    s.Sends ((sv.receive m reply).runOn s).2 [] := by
  have hsame : s.Sends s [] := ⟨rfl, rfl, rfl, rfl, rfl, by simp⟩
  unfold receive
  cases reply with
  | crashed c => exact hsame
  | failed e => exact hsame
  | response x =>
    dsimp only
    cases x.data with
    | error e => exact hsame
    | ok data =>
      have hafter := sv.transform_sends m.responseTransform .response data s
      rcases Effect.runOn_bind_cases _ _ s with ⟨c, t, ht, heq⟩ | ⟨v, t, ht, heq⟩
      · rw [ht] at hafter
        rw [heq]
        exact hafter
      · rw [ht] at hafter
        rw [heq]
        exact hafter

theorem sends_of_receive {sv : Services} {m : Mapping} {reply : Reply} {s t : Router}
    {x : Except Crash (Except CallError (Nat × Json))}
    (h : (sv.receive m reply).runOn s = (x, t)) : s.Sends t [] := by
  have hs := sv.receive_sends m reply s
  rwa [h] at hs

/-- What waits when a call has been begun is what was asked for. -/
theorem begin_eq_waiting {sv : Services} {m : Mapping} {r : Request} {body : Option Json}
    {s t : Router} {p : Pending} (h : (sv.begin m r body).runOn s = (.ok (.waiting p), t)) :
    (sv.ticked s).kept? (m.key? r body) = none ∧
      ∃ o, sv.Asks m r body (sv.ticked s) o ∧ (sv.ticked s).Sends t [o] ∧
        p = ⟨m, m.key? r body, sv.transport s.sent o, sv.turn s.sent o⟩ := by
  rcases begin_cases h with ⟨data, -, hx, -⟩ | ⟨q, hkept, hask, hx⟩
  · cases hx
  · cases hx
    exact ⟨hkept, ask_eq_ok hask⟩

/-- What is done when a call has been begun is what was kept. -/
theorem begin_eq_done {sv : Services} {m : Mapping} {r : Request} {body : Option Json}
    {s t : Router} {c : Call} (h : (sv.begin m r body).runOn s = (.ok (.done c), t)) :
    ∃ data, (sv.ticked s).kept? (m.key? r body) = some data ∧ c = m.success none true data ∧
      t = sv.reported c (sv.ticked s) := by
  rcases begin_cases h with ⟨data, hkept, hx, ht⟩ | ⟨q, -, -, hx⟩
  · cases hx
    exact ⟨data, hkept, rfl, ht⟩
  · cases hx

/-- A begin that crashes has done nothing but to let the clock move. -/
theorem begin_eq_error {sv : Services} {m : Mapping} {r : Request} {body : Option Json}
    {s t : Router} {c : Crash} (h : (sv.begin m r body).runOn s = (.error c, t)) :
    (sv.ticked s).Sends t [] := by
  rw [runOn_begin] at h
  rcases hk : (sv.ticked s).kept? (m.key? r body) with _ | data
  · rw [hk] at h
    rcases ha : (sv.ask m r body).runOn (sv.ticked s) with ⟨d | p, u⟩
    · rw [ha] at h
      cases h
      exact ask_eq_error ha
    · rw [ha] at h
      cases h
  · rw [hk] at h
    cases h

/-- An end that crashes has done nothing but to let the clock move. -/
theorem finish_eq_error {sv : Services} {p : Pending} {s t : Router} {c : Crash}
    (h : (sv.finish p).runOn s = (.error c, t)) : (sv.ticked s).Sends t [] := by
  rw [runOn_finish] at h
  rcases hr : (sv.receive p.mapping p.reply).runOn (sv.ticked s) with ⟨d | (e | ⟨code, data⟩), u⟩
  · rw [hr] at h
    cases h
    exact sends_of_receive hr
  · rw [hr] at h
    cases h
  · rw [hr] at h
    cases h

end Services

/-- A call names the mapping that was called. -/
structure Call.IsOf (c : Call) (m : Mapping) : Prop where
  integrationId : c.integrationId = m.integrationId
  integrationName : c.integrationName = m.integrationName
  mappingId : c.mappingId = m.id
  priority : c.priority = m.priority

/-- A call has data and no error, or an error and no data. -/
structure Call.IsSettled (c : Call) : Prop where
  data_isSome : c.data.isSome = c.succeeded
  error_isSome : c.error.isSome = !c.succeeded

/-- The update tells of the call. -/
structure Telemetry.Update.IsOf (u : Telemetry.Update) (c : Call) : Prop where
  mappingId : u.mappingId = c.mappingId
  integrationId : u.integrationId = c.integrationId
  succeeded : u.succeeded = c.succeeded
  error : u.error = c.error
  fromCache : u.fromCache = c.fromCache
  latency : u.latency = c.duration.toUInt64

theorem Call.isOf_update (c : Call) : c.update.IsOf c := ⟨rfl, rfl, rfl, rfl, rfl, rfl⟩

theorem Call.isSettled_success (m : Mapping) (code : Option Nat) (fromCache : Bool) (data : Json) :
    (m.success code fromCache data).IsOf m ∧ (m.success code fromCache data).IsSettled :=
  ⟨⟨rfl, rfl, rfl, rfl⟩, ⟨rfl, rfl⟩⟩

theorem Call.isSettled_failure (m : Mapping) (e : CallError) :
    (m.failure e).IsOf m ∧ (m.failure e).IsSettled := ⟨⟨rfl, rfl, rfl, rfl⟩, ⟨rfl, rfl⟩⟩

/-- From `s` to `t` the calls have been reported, each that did not take what was kept has sent a
request, and new answers are kept under none but the given keys. -/
structure Router.Accounts (s t : Router) (calls : List Call) (keys : List String) : Prop where
  entries : t.entries = s.entries
  offered : ∃ us, t.updates.offered = s.updates.offered ++ us ∧
    List.Forall₂ Telemetry.Update.IsOf us calls
  sent : ∃ os, t.sent = s.sent ++ os ∧ os.length = (calls.filter fun c => !c.fromCache).length
  kept : ∀ k e, (k, e) ∈ t.responses.entries → (k, e) ∈ s.responses.entries ∨ k ∈ keys

theorem Router.Accounts.refl (s : Router) : s.Accounts s [] [] where
  entries := rfl
  offered := ⟨[], by simp, .nil⟩
  sent := ⟨[], by simp, rfl⟩
  kept := fun _ _ h => .inl h

theorem Router.Accounts.trans {s t u : Router} {cs ds : List Call} {ks ls : List String}
    (h : s.Accounts t cs ks) (h' : t.Accounts u ds ls) : s.Accounts u (cs ++ ds) (ks ++ ls) where
  entries := by rw [h'.entries, h.entries]
  offered := by
    obtain ⟨us, hus, hof⟩ := h.offered
    obtain ⟨vs, hvs, hof'⟩ := h'.offered
    exact ⟨us ++ vs, by rw [hvs, hus, List.append_assoc], List.rel_append hof hof'⟩
  sent := by
    obtain ⟨os, hos, hlen⟩ := h.sent
    obtain ⟨ps, hps, hlen'⟩ := h'.sent
    exact ⟨os ++ ps, by rw [hps, hos, List.append_assoc], by simp [hlen, hlen']⟩
  kept := by
    intro k e hk
    rcases h'.kept k e hk with hk | hk
    · rcases h.kept k e hk with hk | hk
      · exact .inl hk
      · exact .inr (List.mem_append_left _ hk)
    · exact .inr (List.mem_append_right _ hk)

/-- Data that is kept is kept under its key. -/
theorem Router.mem_keeping {s : Router} {key : Option String} {data : Json} {k : String}
    {e : Expiring.Entry Json} (h : (k, e) ∈ (s.keeping key data).responses.entries) :
    (k, e) ∈ s.responses.entries ∨ k ∈ key.toList := by
  cases key with
  | none => exact .inl h
  | some l =>
    rcases Expiring.mem_of_mem_insert h with ⟨rfl, -⟩ | h
    · exact .inr (List.mem_singleton.mpr rfl)
    · exact .inl h

namespace Services
variable {sv : Services} {s t : Router} {c : Call}

/-- A report is one update, and nothing else changes. -/
theorem offered_reported (c : Call) (s : Router) :
    (sv.reported c s).updates.offered = s.updates.offered ++ [c.update] := by
  simp [reported, Telemetry.Journal.offered]

/-- An end: whose call it is, that the call is complete, and what the end does. -/
theorem finish_accounts {p : Pending} (h : (sv.finish p).runOn s = (.ok c, t)) :
    c.IsOf p.mapping ∧ c.IsSettled ∧ c.fromCache = false ∧ t.sent = s.sent ∧
      t.entries = s.entries ∧ t.updates.offered = s.updates.offered ++ [c.update] ∧
      ∀ k e, (k, e) ∈ t.responses.entries → (k, e) ∈ s.responses.entries ∨ k ∈ p.key.toList := by
  rcases finish_cases h with ⟨x, u, hr, rfl, rfl⟩ | ⟨code, data, u, hr, rfl, rfl⟩
  · have hs := sends_of_receive hr
    obtain ⟨hof, hsettled⟩ := Call.isSettled_failure p.mapping x
    refine ⟨hof, hsettled, rfl, by simpa [reported] using hs.sent, hs.entries, ?_, ?_⟩
    · rw [offered_reported, hs.updates]
      rfl
    · intro k e hk
      exact .inl (hs.responses ▸ hk)
  · have hs := sends_of_receive hr
    obtain ⟨hof, hsettled⟩ := Call.isSettled_success p.mapping (some code) false data
    refine ⟨hof, hsettled, rfl, by simpa [reported] using hs.sent,
      by simpa [reported] using hs.entries, ?_, ?_⟩
    · rw [offered_reported, Router.updates_keeping, hs.updates]
      rfl
    · intro k e hk
      have hresponses : u.responses = s.responses := hs.responses
      rw [← hresponses]
      exact Router.mem_keeping hk

/-- One call: whose it is, that it is complete, and what it did. -/
theorem call_accounts {m : Mapping} {r : Request} {body : Option Json}
    (h : (sv.call m r body).runOn s = (.ok c, t)) :
    c.IsOf m ∧ c.IsSettled ∧ s.Accounts t [c] (m.key? r body).toList := by
  rcases call_cases h with hbegin | ⟨p, u, hbegin, hfinish⟩
  · obtain ⟨data, -, rfl, rfl⟩ := begin_eq_done hbegin
    obtain ⟨hof, hsettled⟩ := Call.isSettled_success m none true data
    exact ⟨hof, hsettled, rfl, ⟨_, offered_reported _ _, .cons (Call.isOf_update _) .nil⟩,
      ⟨[], by simp [reported, ticked], rfl⟩, fun _ _ h => .inl h⟩
  · obtain ⟨-, o, -, hs, rfl⟩ := begin_eq_waiting hbegin
    obtain ⟨hof, hsettled, hfresh, hsent, hentries, hoffered, hkept⟩ := finish_accounts hfinish
    refine ⟨hof, hsettled, hentries.trans hs.entries, ⟨[c.update], ?_, ?_⟩, ⟨[o], ?_, ?_⟩, ?_⟩
    · rw [hoffered, hs.updates]
      rfl
    · exact .cons (Call.isOf_update c) .nil
    · rw [hsent, hs.sent]
      rfl
    · simp [hfresh]
    · intro k e hk
      have hresponses : u.responses = s.responses := hs.responses
      rw [← hresponses]
      exact hkept k e hk

end Services
end Switchboard
