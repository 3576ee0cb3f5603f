import Switchboard.Proofs.Execution.Provenance
import Switchboard.Proofs.Execution.Results

/-! Codes in the log. A failed route is logged with the code of its first failed call. That is no
code of success, except where the call got a response of success and could not read its body. -/
namespace Switchboard

/-- A response of success with a body that is neither blank nor JSON. -/
structure Response.IsGarbled (x : Response) : Prop where
  success : x.isSuccess = true
  body_ne : Text.trim x.body.toList ≠ []
  error : ∃ e, Json.parse x.body = .error e

/-- An error about a response has its code; one of success is garbled. -/
theorem Response.data_eq_error {x : Response} {e : CallError} (h : x.data = .error e) :
    e.code? = some x.code ∧ (x.isSuccess = true → x.IsGarbled) := by
  unfold data at h
  by_cases hx : x.isSuccess = true
  · rw [if_neg (by simp [hx])] at h
    by_cases hbody : Text.trim x.body.toList = []
    · rw [if_pos hbody] at h
      cases h
    · rw [if_neg hbody] at h
      cases hparse : Json.parse x.body with
      | ok v =>
        rw [hparse] at h
        cases h
      | error err =>
        rw [hparse] at h
        cases h
        exact ⟨rfl, fun _ => ⟨hx, hbody, err, hparse⟩⟩
  · rw [if_pos (by simp [hx])] at h
    cases h
    exact ⟨rfl, fun htrue => absurd htrue hx⟩

theorem Response.isSuccess_iff {x : Response} :
    x.isSuccess = true ↔ 200 ≤ x.code ∧ x.code < 300 := by
  simp [isSuccess]

/-- A call asks for its request, and the transport has a response for it. -/
def Event.Gets (sv : Services) (e : Event) (x : Response) : Prop :=
  ∃ o, e.Asks sv o ∧ sv.transport e.before.sent o = .response x

/-- The code of a failure. -/
def Call.failureCode (c : Call) : Nat := c.statusCode.getD 500

/-- A reply is no data where it is no response, or one without data. -/
theorem Services.receive_eq_error {sv : Services} {m : Mapping} {reply : Reply} {s t : Router}
    {e : CallError} (h : (sv.receive m reply).runOn s = (.ok (.error e), t)) :
    (∃ x, reply = .failed x ∧ e = .transport x) ∨
      ∃ x, reply = .response x ∧ x.data = .error e := by
  unfold receive at h
  cases reply with
  | crashed c => cases h
  | failed x =>
    cases h
    exact .inl ⟨x, rfl, rfl⟩
  | response x =>
    refine .inr ⟨x, rfl, ?_⟩
    dsimp only at h
    cases hdata : x.data with
    | error err =>
      rw [hdata] at h
      cases h
      rfl
    | ok data =>
      rw [hdata] at h
      obtain ⟨made, u, -, h⟩ := Effect.runOn_bind_eq_ok h
      cases h

namespace Event
variable {sv : Services} {e : Event} {c : Call}

/-- A failed call has the code of the response to it, and 500 without one. -/
theorem failureCode_cases (h : e.Ends sv c) (hc : c.succeeded = false) :
    (∃ x, e.Gets sv x ∧ c.failureCode = x.code ∧ (x.isSuccess = true → x.IsGarbled)) ∨
      (∀ x, ¬ e.Gets sv x) ∧ c.failureCode = 500 := by
  cases h with
  | atOnce h =>
    obtain ⟨data, -, rfl, -⟩ := Services.begin_eq_done (begin_eq h)
    cases hc
  | later h hend =>
    obtain ⟨-, o, ho, -, rfl⟩ := Services.begin_eq_waiting (begin_eq h)
    rcases Services.finish_cases (Prod.ext hend rfl) with ⟨err, u, hr, rfl, -⟩ |
      ⟨code, data, u, -, rfl, -⟩
    · rcases Services.receive_eq_error hr with ⟨x, hx, rfl⟩ | ⟨x, hx, hdata⟩
      · have hreply : sv.transport e.before.sent o = .failed x := hx
        refine .inr ⟨?_, rfl⟩
        rintro y ⟨o', ho', hy⟩
        rw [Services.Asks.unique ho' ho, hreply] at hy
        cases hy
      · obtain ⟨hcode, hgarbled⟩ := Response.data_eq_error hdata
        exact .inl ⟨x, ⟨o, ho, hx⟩, congrArg (·.getD 500) hcode, hgarbled⟩
    · cases hc

theorem Gets.unique {x y : Response} (h : e.Gets sv x) (h' : e.Gets sv y) : x = y := by
  obtain ⟨o, ho, hx⟩ := h
  obtain ⟨o', ho', hy⟩ := h'
  rw [Services.Asks.unique ho' ho, hx] at hy
  exact Reply.response.inj hy

theorem failureCode_of_gets (h : e.Ends sv c) (hc : c.succeeded = false)
    {x : Response} (hx : e.Gets sv x) : c.failureCode = x.code := by
  rcases failureCode_cases h hc with ⟨y, hy, hcode, -⟩ | ⟨hnone, -⟩
  · rw [hcode, hy.unique hx]
  · exact absurd hx (hnone x)

/-- A failed call has a code of success exactly if it got a garbled response. -/
theorem failureCode_iff (h : e.Ends sv c) (hc : c.succeeded = false) :
    (200 ≤ c.failureCode ∧ c.failureCode < 300) ↔ ∃ x, e.Gets sv x ∧ x.IsGarbled := by
  constructor
  · intro hrange
    rcases failureCode_cases h hc with ⟨x, hx, hcode, hgarbled⟩ | ⟨-, hcode⟩
    · rw [hcode] at hrange
      exact ⟨x, hx, hgarbled (Response.isSuccess_iff.mpr hrange)⟩
    · rw [hcode] at hrange
      exact absurd hrange (by decide)
  · rintro ⟨x, hx, hgarbled⟩
    rw [failureCode_of_gets h hc hx]
    exact Response.isSuccess_iff.mp hgarbled.success

end Event

theorem Status.ne_failure_iff {status : Status} :
    status ≠ .failure ↔ status = .success ∨ status = .partly := by
  cases status <;> decide

/-- The first call that failed. -/
def firstFailed? (ps : List (Event × Call)) : Option (Event × Call) :=
  ps.find? fun p => !p.2.succeeded

namespace Services
variable {sv : Services} {s t : Router}

/-- A failed route is logged with the code of the first call that failed. -/
theorem responseCode_ofResult {route : Route} {r : Request} {ps : List (Event × Call)}
    (hne : ps ≠ []) (hsettled : ∀ c ∈ ps.map (·.2), c.IsSettled) {entry : LogEntry} {now : Int}
    (hentry : entry = .ofResult route r (sv.resultOf route r (.ok (ps.map (·.2)))) now) :
    entry.status ≠ .failure ∧ entry.responseCode = 200 ∨
      entry.status = .failure ∧ ∃ p, firstFailed? ps = some p ∧
        entry.responseCode = p.2.failureCode := by
  have hfits := sv.outcome_fits route r (by simpa using hne) hsettled
  subst hentry
  by_cases hstatus : (sv.outcome route r (ps.map (·.2))).1 = .failure
  · obtain ⟨-, c, hc, hfailed⟩ := hfits.failure hstatus
    obtain ⟨p, hp, rfl⟩ := List.mem_map.mp hc
    obtain ⟨q, hq⟩ : ∃ q, firstFailed? ps = some q :=
      Option.isSome_iff_exists.mp (List.find?_isSome.mpr ⟨p, hp, by simp [hfailed]⟩)
    have hfind : (ps.map (·.2)).find? (fun c => !c.succeeded) = some q.2 := by
      rw [List.find?_map]
      exact congrArg (Option.map (·.2)) hq
    refine .inr ⟨hstatus, q, hq, ?_⟩
    simp [LogEntry.ofResult, Result.responseCode, Result.succeeded, resultOf, hstatus, hfind,
      Call.failureCode]
  · refine .inl ⟨hstatus, ?_⟩
    simp [LogEntry.ofResult, Result.responseCode, Result.succeeded, resultOf, hstatus]

/-- Calls log nothing, also those that crash. -/
theorem trail_entries (sv : Services) (route : Route) (r : Request) (s : Router) :
    ((sv.trail route r).runOn s).2.entries = s.entries := by
  have hkeeps : (sv.caller r).Keeps route.mappings (fun t => t.entries = s.entries)
      (fun _ _ => True) fun t => t.entries = s.entries := by
    refine .of_preserves (fun m _ body t ht => ?_) fun p t ht => ?_
    · exact ((Moment.begun ⟨m, r, body, t⟩).after_entries sv).trans ht
    · exact ((Moment.ended ⟨p.mapping, r, none, t⟩ p t).after_entries sv).trans ht
  exact (hkeeps.trail r.body).preserves s rfl

/-- What a request has logged is the result of a route that made calls. -/
theorem exists_trailed_of_entries {path method : String} {r : Request}
    {entry : LogEntry} {d : Telemetry.Delivery}
    (h : (sv.execute path method r s).2.entries = s.entries ++ [(entry, d)]) :
    ∃ route ps g t, sv.runnable? path method = some route ∧ sv.Passes s g t ∧
      Trailed sv route r ps g ∧ ps ≠ [] ∧
      entry = .ofResult route r (sv.resultOf route r (.ok (ps.map (·.2)))) t.now := by
  rcases hroute : sv.runnable? path method with _ | route
  · rw [(execute_of_not_runnable hroute r s).2] at h
    simp at h
  · have hentries := sv.trail_entries route r s
    have hrun := sv.runOn_runRoute route r s
    rw [← run_of_runnable hroute] at hrun
    unfold execute at h
    rcases htrail : (sv.trail route r).runOn s with ⟨x | calls, t⟩
    · -- A crash ends the trail before anything is logged.
      rw [htrail] at hrun hentries
      rw [hrun] at h
      replace hentries : t.entries = s.entries := hentries
      replace h : t.entries = s.entries ++ [(entry, d)] := h
      simp [hentries] at h
    · obtain ⟨ps, g, -, hpasses, rfl, hps⟩ := @trail_passes sv route r (s, []) calls t htrail
      rw [htrail] at hrun hentries
      rw [hrun] at h
      replace hentries : t.entries = s.entries := hentries
      refine ⟨route, ps, g, t, rfl, hpasses, hps, fun hne => ?_, ?_⟩
      · exact (runnable?_eq_some hroute).2.2 (hps.some_call hne)
      · have hlog := List.append_inj_right h (congrArg List.length hentries)
        exact (congrArg Prod.fst (List.singleton_inj.mp hlog)).symm

end Services

/-- The code in the log is one of success exactly if the route succeeded, in full or in part, or the
first call that failed got a response of success with a body that is neither blank nor JSON. The
code of a failed route is that of the response to that call. -/
theorem execute_code {sv : Services} {path method : String} {r : Request} {s : Router}
    {entry : LogEntry} {d : Telemetry.Delivery}
    (h : (sv.execute path method r s).2.entries = s.entries ++ [(entry, d)]) :
    ∃ route ps g t, sv.runnable? path method = some route ∧ sv.Passes s g t ∧
      Trailed sv route r ps g ∧ entry.calls = ps.map (·.2) ∧
      ((200 ≤ entry.responseCode ∧ entry.responseCode < 300) ↔
        (entry.status = .success ∨ entry.status = .partly) ∨
          ∃ p x, firstFailed? ps = some p ∧ p.1.Gets sv x ∧ x.IsGarbled) ∧
      (entry.status = .failure → ∀ p x, firstFailed? ps = some p → p.1.Gets sv x →
        entry.responseCode = x.code) := by
  obtain ⟨route, ps, g, t, hroute, hpasses, hps, hne, hentry⟩ :=
    Services.exists_trailed_of_entries h
  refine ⟨route, ps, g, t, hroute, hpasses, hps, by rw [hentry]; rfl, ?_⟩
  rcases Services.responseCode_ofResult hne hps.isSettled hentry with
    ⟨hstatus, hcode⟩ | ⟨hstatus, p, hp, hcode⟩
  · refine ⟨⟨fun _ => .inl (Status.ne_failure_iff.mp hstatus), fun _ => ?_⟩,
      fun hfailure => absurd hfailure hstatus⟩
    rw [hcode]
    decide
  · have hfailed : p.2.succeeded = false := by simpa using List.find?_some hp
    have hout := hps.outcome p (List.mem_of_find?_eq_some hp)
    have hfirst : ∀ q, firstFailed? ps = some q → q = p :=
      fun q hq => Option.some.inj (hq.symm.trans hp)
    rw [hcode, Event.failureCode_iff hout hfailed]
    refine ⟨⟨?_, ?_⟩, fun _ q x hq hx => ?_⟩
    · rintro ⟨x, hx, hgarbled⟩
      exact .inr ⟨p, x, hp, hx, hgarbled⟩
    · rintro (hsuccess | ⟨q, x, hq, hx, hgarbled⟩)
      · exact absurd hstatus (Status.ne_failure_iff.mpr hsuccess)
      · rw [hfirst q hq] at hx
        exact ⟨x, hx, hgarbled⟩
    · rw [hfirst q hq] at hx
      exact Event.failureCode_of_gets hout hfailed hx

namespace Sample

/-- One mapping at an integration that always answers with a page. -/
def pageServices : Services where
  settings := {}
  routes := fun _ _ => .found (some
    { id := "r", name := "r", path := "/r", mappings := [mapping "a" false false] })
  transport := fun _ _ => .response ⟨200, none, "<html>"⟩
  library := ⟨fun _ => .ok none, []⟩

theorem entries_page : ∃ entry d,
    (pageServices.execute "/r" "GET" (get none) (.start {})).2.entries = [(entry, d)] ∧
      entry.responseCode = 200 ∧ entry.status = .failure := by
  have h : (pageServices.execute "/r" "GET" (get none) (.start {})).2.entries.map
      (fun p => (p.1.responseCode, p.1.status)) = [(200, .failure)] := by decide +kernel
  obtain ⟨⟨entry, d⟩, hentries, hparts⟩ := List.map_eq_singleton_iff.mp h
  exact ⟨entry, d, hentries, congrArg Prod.fst hparts, congrArg Prod.snd hparts⟩

end Sample

/-- A page that comes with a code of success makes its call fail, and the route is logged with that
code. -/
theorem code_of_page : ∃ entry d,
    (Sample.pageServices.execute "/r" "GET" (Sample.get none) (.start {})).2.entries =
        [(entry, d)] ∧
      ¬ ((200 ≤ entry.responseCode ∧ entry.responseCode < 300) ↔
        (entry.status = .success ∨ entry.status = .partly)) := by
  obtain ⟨entry, d, h, hcode, hstatus⟩ := Sample.entries_page
  refine ⟨entry, d, h, ?_⟩
  rw [hcode, hstatus]
  decide

theorem execute_code_page : ∃ entry d,
    (Sample.pageServices.execute "/r" "GET" (Sample.get none) (.start {})).2.entries =
        [(entry, d)] ∧
      entry.status = .failure ∧ ∃ route ps g t,
        Sample.pageServices.runnable? "/r" "GET" = some route ∧
        Sample.pageServices.Passes (.start {}) g t ∧
        Trailed Sample.pageServices route (Sample.get none) ps g ∧
        entry.calls = ps.map (·.2) ∧ ∃ p x, firstFailed? ps = some p ∧
          p.1.Gets Sample.pageServices x ∧ x.IsGarbled ∧ entry.responseCode = x.code := by
  obtain ⟨entry, d, h, hcode, hstatus⟩ := Sample.entries_page
  obtain ⟨route, ps, g, t, hroute, hpasses, hps, hcalls, hiff, hsame⟩ :=
    execute_code (s := .start {}) h
  have hrange : 200 ≤ entry.responseCode ∧ entry.responseCode < 300 := by
    rw [hcode]
    decide
  rcases hiff.mp hrange with hsuccess | ⟨p, x, hp, hx, hgarbled⟩
  · exact absurd hstatus (Status.ne_failure_iff.mpr hsuccess)
  · have hcode := hsame hstatus p x hp hx
    exact ⟨entry, d, h, hstatus, route, ps, g, t, hroute, hpasses, hps, hcalls, p, x, hp, hx,
      hgarbled, hcode⟩

end Switchboard
