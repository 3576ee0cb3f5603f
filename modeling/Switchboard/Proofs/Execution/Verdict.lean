import Switchboard.Proofs.Execution.Provenance
import Switchboard.Proofs.Execution.Uncached

/-! What a cache may change. A run with kept answers and the run without any go along with each
other: what is kept was the answer to a call with the same key, and it is the answer to each later
one if such calls are alike for the integration. A key does not tell of everything that makes them
so: neither of where the mapping leads nor of the headers that are passed on. -/
namespace Switchboard

/-- Two calls that send the same requests and treat the responses in the same way. -/
structure Event.Alike (sv : Services) (e f : Event) : Prop where
  requestTransform : e.mapping.requestTransform = f.mapping.requestTransform
  responseTransform : e.mapping.responseTransform = f.mapping.responseTransform
  outbound : ∀ body, (Outbound.ofMapping sv.settings e.mapping e.request body).Alike
    (.ofMapping sv.settings f.mapping f.request body)

/-- Each call that finds what the end of another one has stored under its key is like that one. -/
def KeepsApart (sv : Services) (h : List Moment) : Prop :=
  ∀ e ∈ Moment.begins h, ∀ x ∈ h, ∀ data, (sv.ticked e.before).kept? e.key? = some data →
    x.stored? sv = some data → e.tuple = x.event.tuple → e.Alike sv x.event

/-- The members of a query, which is in order wherever it is built or read. -/
theorem Request.queryJson_of_sorted {r : Request} (h : Fields.Sorted r.query) :
    r.queryJson = .obj (r.query.map fun e => (e.1, .arr (e.2.map .str))) :=
  congrArg Json.obj (Fields.ofList_of_sorted (h.map fun vs => Json.arr (vs.map .str)))

theorem Request.query_eq {r q : Request} (hr : Fields.Sorted r.query) (hq : Fields.Sorted q.query)
    (h : r.queryJson = q.queryJson) : r.query = q.query := by
  have hwritten : Function.Injective fun e : String × List String =>
      (e.1, Json.arr (e.2.map Json.str)) := by
    rintro ⟨k, vs⟩ ⟨l, ws⟩ heq
    simp only [Prod.mk.injEq, Json.arr.injEq] at heq
    rw [heq.1, List.map_injective_iff.mpr (fun _ _ => Json.str.inj) heq.2]
  rw [queryJson_of_sorted hr, queryJson_of_sorted hq] at h
  exact List.map_injective_iff.mpr hwritten (Json.obj.inj h)

/-- Calls of one mapping that have the same key are alike where their requests have the same
headers. -/
theorem Event.alike_of_headers {sv : Services} {e f : Event} (hm : e.mapping = f.mapping)
    (hh : e.request.headers = f.request.headers) (he : Fields.Sorted e.request.query)
    (hf : Fields.Sorted f.request.query) (ht : e.tuple = f.tuple) : e.Alike sv f := by
  have hquery : e.request.query = f.request.query :=
    Request.query_eq he hf (congrArg (·.2.2.1) ht)
  refine ⟨by rw [hm], by rw [hm], fun body => ?_⟩
  unfold Outbound.ofMapping Outbound.headersOf
  rw [hm, hh, hquery]
  exact ⟨rfl, rfl, rfl, rfl⟩

/-- Calls that are alike and have the same body have the same answer. -/
theorem Event.answer_eq {sv : Services} (hsv : sv.Stateless) {e f : Event} (h : e.Alike sv f)
    (ht : e.tuple = f.tuple) :
    sv.answer e.mapping e.request e.body = sv.answer f.mapping f.request f.body := by
  have hbody : e.body.getD .null = f.body.getD .null := congrArg (·.2.2.2) ht
  unfold Services.answer Services.awaited
  rw [h.requestTransform, hbody]
  cases sv.made f.mapping.requestTransform .request (f.body.getD .null) with
  | error c => rfl
  | ok shaped =>
    have hreply := (hsv [] [] _ _ (h.outbound shaped.nonNull?)).1
    show sv.read e.mapping (sv.transport [] _) = sv.read f.mapping (sv.transport [] _)
    unfold Services.read
    rw [hreply, h.responseTransform]

/-- What waits where nothing is kept. -/
def Pending.uncached (p : Pending) : Pending :=
  { p with mapping := p.mapping.uncached, key := none }

/-- The data under the key has been kept at the end of the call, and was the answer to it. -/
structure Moment.Keeps (sv : Services) (x : Moment) (k : String) (data : Json) : Prop where
  key : x.event.key? = some k
  stored : x.stored? sv = some data
  answer : ∃ code,
    sv.answer x.event.mapping x.event.request x.event.body = .ok (.ok (code, data))

/-- The router `t` has come as far as that of `p` without a cache, and what is kept in `p` are
answers to calls that have ended in its history and were begun in `h`. -/
structure Shadows (sv : Services) (h : List Moment) (p : Router × List Moment) (t : Router) :
    Prop where
  cached : sv.IsSound p.1
  uncached : sv.IsSound t
  kept : ∀ k v, (k, v) ∈ p.1.responses.entries →
    ∃ x ∈ p.2, x.event ∈ Moment.begins h ∧ x.Keeps sv k v.value

namespace Shadows
variable {sv : Services} {h g : List Moment} {s t : Router}

/-- One moment more, which keeps no more than it should. -/
theorem append (hR : Shadows sv h (s, g) t) {x : Moment} {s' t' : Router} (hs : sv.IsSound s')
    (ht : sv.IsSound t') (hx : x.event ∈ Moment.begins h)
    (hkept : ∀ k v, (k, v) ∈ s'.responses.entries → (k, v) ∈ s.responses.entries ∨
      x.Keeps sv k v.value) : Shadows sv h (s', g ++ [x]) t' where
  cached := hs
  uncached := ht
  kept := by
    intro k v hv
    rcases hkept k v hv with hv | hkeeps
    · obtain ⟨y, hy, hbegun, hkeeps⟩ := hR.kept k v hv
      exact ⟨y, List.mem_append_left _ hy, hbegun, hkeeps⟩
    · exact ⟨x, List.mem_append_right _ (List.mem_singleton_self x), hx, hkeeps⟩

/-- What a call finds is the answer to it, as it was that to one which is like it by its key. -/
theorem answer_of_kept (hsv : sv.Stateless) (hkeys : Collisionless (Moment.begins h))
    (halike : KeepsApart sv h) {e : Event} (hR : Shadows sv h (e.before, g) t) (hg : g ⊆ h)
    (he : e ∈ Moment.begins h) {data : Json}
    (hkept : (sv.ticked e.before).kept? e.key? = some data) :
    ∃ code, sv.answer e.mapping e.request e.body = .ok (.ok (code, data)) := by
  obtain ⟨k, hk, hget⟩ := Option.bind_eq_some_iff.mp hkept
  obtain ⟨v, hv, rfl, -⟩ := Expiring.mem_of_get? hget
  obtain ⟨x, hx, hbegun, hkey, hstored, code, hanswer⟩ := hR.kept k v hv
  have htuple : e.tuple = x.event.tuple := hkeys e he x.event hbegun k hk hkey
  have hlike : e.Alike sv x.event := halike e he x (hg hx) _ hkept hstored htuple
  exact ⟨code, by rw [← hanswer, Event.answer_eq hsv hlike htuple]⟩

end Shadows

namespace Services
variable {sv : Services}

/-- A call without a cache waits for what the first one would wait for. -/
theorem begin_uncached (hsv : sv.Stateless) {t : Router} (ht : sv.IsSound t) (m : Mapping)
    (r : Request) (body : Option Json) :
    ((sv.uncached.begin m.uncached r body).runOn t).1 =
        (sv.awaited m r body).map (.waiting ∘ Pending.uncached) ∧
      sv.IsSound ((sv.uncached.begin m.uncached r body).runOn t).2 := by
  obtain ⟨hbegin, hsound, -⟩ := @begin_fresh sv.uncached hsv t ht m.uncached r body rfl
  have hmade : sv.uncached.made m.uncached.requestTransform .request (body.getD .null) =
      sv.made m.requestTransform .request (body.getD .null) := rfl
  refine ⟨hbegin.trans ?_, hsound⟩
  unfold awaited
  rw [hmade]
  cases sv.made m.requestTransform .request (body.getD .null) <;> rfl

/-- Both wait for the same, but what comes of it is kept on one side alone. -/
def Awaits (sv : Services) (h : List Moment) (q : Event × Pending) (p : Pending) : Prop :=
  q.1 ∈ Moment.begins h ∧ sv.awaited q.1.mapping q.1.request q.1.body = .ok q.2 ∧
    p = q.2.uncached

/-- The call is what comes of waiting, and this is kept nowhere. -/
def Foresees (sv : Services) (c : Call) (p : Pending) : Prop :=
  p.key = none ∧ ∃ d, sv.ended p = .ok d ∧ c.plain = d.plain

/-- What comes of waiting is the answer. -/
theorem answer_of_awaited {m : Mapping} {r : Request} {body : Option Json} {p : Pending}
    (h : sv.awaited m r body = .ok p) :
    p.mapping = m ∧ p.key = m.key? r body ∧ sv.answer m r body = sv.read m p.reply := by
  unfold answer
  rw [h]
  unfold awaited at h
  cases hmade : sv.made m.requestTransform .request (body.getD .null) with
  | error c =>
    rw [hmade] at h
    cases h
  | ok shaped =>
    rw [hmade] at h
    cases h
    exact ⟨rfl, rfl, rfl⟩

/-- A kept answer is what comes of waiting. -/
theorem foresees {m : Mapping} {r : Request} {body : Option Json} {p : Pending} {code : Nat}
    {data : Json} (h : sv.awaited m r body = .ok p)
    (hanswer : sv.answer m r body = .ok (.ok (code, data))) :
    sv.Foresees (m.success none true data) p.uncached := by
  obtain ⟨rfl, -, hread⟩ := answer_of_awaited h
  refine ⟨rfl, p.mapping.uncached.success (some code) false data, ?_, rfl⟩
  show (sv.read p.mapping p.reply).map _ = _
  rw [← hread, hanswer]
  rfl

/-- What waits ends in the same way with a cache and without one. -/
theorem ended_uncached (sv : Services) (p : Pending) :
    Effect.Agree (fun c d => c.plain = d.plain) (sv.ended p) (sv.uncached.ended p.uncached) := by
  show Effect.Agree _ ((sv.read p.mapping p.reply).map _) ((sv.read p.mapping p.reply).map _)
  rcases sv.read p.mapping p.reply with c | (e | ⟨code, data⟩) <;> rfl

/-- A call that keeps nothing goes along with the same call with a cache. -/
theorem noted_goesAlong_uncached (hsv : sv.Stateless) {h : List Moment}
    (hkeys : Collisionless (Moment.begins h)) (halike : KeepsApart sv h) (r : Request) :
    (sv.noted r).GoesAlong (sv.uncached.caller r).uncached (fun p => p.2 ⊆ h) (Shadows sv h)
      (fun c d => c.plain = d.plain) (sv.Awaits h) sv.Foresees where
  agree _ _ := Call.agree_of_plain
  turn := by
    rintro q _ ⟨-, -, rfl⟩
    rfl
  begin := by
    rintro m body ⟨s, g⟩ t hR hsub
    have he : (⟨m, r, body, s⟩ : Event) ∈ Moment.begins h :=
      Moment.mem_begins.mpr (hsub (List.mem_append_right g (List.mem_singleton_self _)))
    have hg : g ⊆ h := fun x hx => hsub (List.mem_append_left _ hx)
    obtain ⟨hbegin, hsound⟩ := begin_uncached hsv hR.uncached m r body
    show Effect.Agree _ _ ((sv.uncached.begin m.uncached r body).runOn t).1 ∧ Shadows sv h _ _
    rw [hbegin, runOn_noted_begin]
    rcases hkept : (sv.ticked s).kept? (m.key? r body) with _ | data
    · obtain ⟨hout, hsound', hresponses⟩ := begin_fresh hsv hR.cached hkept
      refine ⟨?_, hR.append hsound' hsound he fun k v hv => .inl (hresponses ▸ hv)⟩
      rw [hout]
      cases hawaited : sv.awaited m r body with
      | error c => rfl
      | ok p => exact .waiting ⟨he, hawaited, rfl⟩ trivial
    -- What is found is the answer that the other side waits for.
    · obtain ⟨code, hanswer⟩ := Shadows.answer_of_kept hsv hkeys halike hR hg he hkept
      have hbegun : (sv.begin m r body).runOn s = (.ok (.done (m.success none true data)),
          sv.reported (m.success none true data) (sv.ticked s)) := by
        rw [runOn_begin, hkept]
      rw [hbegun]
      refine ⟨?_, hR.append hR.cached hsound he fun k v hv => .inl hv⟩
      cases hawaited : sv.awaited m r body with
      | error c =>
        rw [answer, hawaited] at hanswer
        cases hanswer
      | ok p => exact .ahead (foresees hawaited hanswer) trivial
  finish := by
    rintro q _ ⟨hq, hawaited, rfl⟩ ⟨s, g⟩ t hR hsub
    obtain ⟨hm, hkey, hread⟩ := answer_of_awaited hawaited
    obtain ⟨hout, hsound, hentries⟩ := finish_fresh hR.cached q.2
    obtain ⟨hout', hsound', -⟩ := @finish_fresh sv.uncached t hR.uncached q.2.uncached
    have hended := sv.ended_uncached q.2
    rw [← hout, ← hout'] at hended
    refine ⟨hended, hR.append hsound hsound' hq fun k v hv => ?_⟩
    refine (hentries k v hv).imp_right fun ⟨hk, code, hvalue⟩ => ⟨hkey.symm.trans hk, ?_, code, ?_⟩
    · simp [Moment.stored?, hk, hout, ended, hvalue, Except.toOption, Except.map, Mapping.success]
    · exact hread.trans (hm ▸ hvalue)
  ahead := by
    rintro c p ⟨hkey, d, hd, hplain⟩ ⟨s, g⟩ t hR hsub
    obtain ⟨hout, hsound, -⟩ := @finish_fresh sv.uncached t hR.uncached p
    show Effect.Agree _ _ ((sv.uncached.finish p).runOn t).1 ∧ Shadows sv h (s, g) _
    have hended : sv.uncached.ended p = .ok d := hd
    rw [hout, hended]
    exact ⟨hplain, hR.cached, hsound, hR.kept⟩
  begin_spoils := fun _ _ p hp hsub => hp fun x hx => hsub (List.mem_append_left _ hx)
  finish_spoils := fun _ p hp hsub => hp fun x hx => hsub (List.mem_append_left _ hx)

/-- Trails that differ in where their data is from have the same verdict. -/
theorem verdict_of_trails (route : Route) (r : Request) {x y : Except Crash (List Call)}
    (h : Effect.Agree (List.Forall₂ fun c d => c.plain = d.plain) x y) :
    (sv.resultOf route r x).verdict = (sv.uncached.resultOf route.uncached r y).verdict := by
  cases x with
  | error c =>
    cases y with
    | error d =>
      have hcd : c = d := h
      rw [hcd]
      rfl
    | ok ds => exact h.elim
  | ok cs =>
    cases y with
    | error d => exact h.elim
    | ok ds =>
      have hplain : cs.map Call.plain = ds.map Call.plain := by
        rw [← List.forall₂_eq_eq_eq, List.forall₂_map_left_iff, List.forall₂_map_right_iff]
        exact h
      have houtcome : sv.outcome route r cs = sv.uncached.outcome route.uncached r ds := by
        rw [← outcome_plain, hplain]
        exact outcome_plain sv route r ds
      have herrors : Call.errorTexts cs = Call.errorTexts ds := by
        rw [← Call.errorTexts_plain, hplain, Call.errorTexts_plain]
      simp only [resultOf, Result.verdict, houtcome, herrors]

/-- One request to both routers. -/
theorem execute_uncached (hsv : sv.Stateless) {h : List Moment}
    (hkeys : Collisionless (Moment.begins h)) (halike : KeepsApart sv h) (path method : String)
    (r : Request) {p : Router × List Moment} {t : Router} (hR : Shadows sv h p t)
    (hsub : (sv.note p (.request path method r)).2 ⊆ h) :
    (sv.execute path method r p.1).1.verdict = (sv.uncached.execute path method r t).1.verdict ∧
      Shadows sv h (sv.note p (.request path method r)) (sv.uncached.execute path method r t).2 := by
  have hroute' := sv.runnable?_uncached path method
  rcases hroute : sv.runnable? path method with _ | route
  · rw [hroute] at hroute'
    rw [note_of_not_runnable hroute, (execute_of_not_runnable hroute' r t).2]
    exact ⟨(verdict_of_not_runnable hroute r p.1 t).symm, hR⟩
  · rw [hroute] at hroute'
    rw [note_of_runnable hroute] at hsub ⊢
    obtain ⟨⟨entries, hs⟩, hresult⟩ := execute_of_runnable hroute r p.1
    obtain ⟨⟨entries', ht⟩, hresult'⟩ := execute_of_runnable hroute' r t
    obtain ⟨hcalls, hstate⟩ := sv.noted_trail route r p
    obtain ⟨hagree, hR'⟩ :=
      (noted_goesAlong_uncached hsv hkeys halike r).trail route r.body p t hR hsub
    have htrail : Strategy.trail (sv.uncached.caller r).uncached route r.body =
        sv.uncached.trail route.uncached r := (Strategy.trail_uncached _ route r.body).symm
    rw [htrail] at hagree hR'
    rw [hcalls] at hagree
    constructor
    · rw [hresult, hresult']
      exact verdict_of_trails route r hagree
    · rw [hs, ht]
      refine ⟨?_, hR'.uncached, ?_⟩
      · have hsound := hR'.cached
        unfold IsSound at hsound
        rwa [hstate] at hsound
      · have hkept := hR'.kept
        rwa [hstate] at hkept

theorem results_uncached (hsv : sv.Stateless) {h : List Moment}
    (hkeys : Collisionless (Moment.begins h)) (halike : KeepsApart sv h) (steps : List Step)
    {p : Router × List Moment} {t : Router} (hR : Shadows sv h p t)
    (hsub : (steps.foldl sv.note p).2 ⊆ h) :
    (sv.results steps p.1).map Result.verdict =
      (sv.uncached.results steps t).map Result.verdict := by
  induction steps generalizing p t with
  | nil => rfl
  | cons step steps ih =>
    cases step with
    | clock now => exact @ih ({ p.1 with now }, p.2) { t with now } ⟨hR.1, hR.2, hR.3⟩ hsub
    | request path method r =>
      have hmid : (sv.note p (.request path method r)).2 ⊆ h :=
        fun x hx => hsub (sv.mem_notes steps hx)
      obtain ⟨hverdict, hnext⟩ := execute_uncached hsv hkeys halike path method r hR hmid
      have hrest := ih hnext hsub
      simp only [results, List.map_cons, hverdict]
      exact congrArg (_ :: ·) hrest

end Services

/-- Answers that are kept show in no verdict of a run, if the integrations reply by the requests
alone and each call that finds an answer is like the one that has stored it. -/
theorem cache_keeps_verdicts {sv : Services} {steps : List Step} (hsv : sv.Stateless)
    (hkeys : Collisionless (Moment.begins (sv.history steps)))
    (halike : KeepsApart sv (sv.history steps)) :
    (sv.results steps (.start sv.settings)).map Result.verdict =
      (sv.uncached.results steps (.start sv.settings)).map Result.verdict := by
  have hstart : Shadows sv (sv.history steps) (.start sv.settings, []) (.start sv.settings) := by
    refine ⟨Transform.Memory.sound_empty _ _, Transform.Memory.sound_empty _ _, ?_⟩
    intro k v hv
    cases hv
  exact Services.results_uncached hsv hkeys halike steps hstart (List.Subset.refl _)

theorem cache_keeps_verdicts_hit :
    (Sample.cachedServices.results Sample.steps (.start {})).map
        (fun result => result.calls.map (·.fromCache)) = [[false], [true]] ∧
      (Sample.cachedServices.results Sample.steps (.start {})).map Result.verdict =
        ((Sample.slow (Sample.configuration.uncached.services []
            fun _ _ => .response ⟨200, none, ""⟩)).results
          Sample.steps (.start {})).map Result.verdict := by
  have hevents : ∀ x ∈ Sample.cachedServices.history Sample.steps,
      x.event.mapping = Sample.mapping "a" false true ∧ x.event.request.headers = [] ∧
        x.event.request.query = [] := by
    rw [Sample.history_steps]
    intro x hx
    rcases List.mem_cons.mp hx with rfl | hx
    · exact ⟨rfl, rfl, rfl⟩
    · rcases List.mem_cons.mp hx with rfl | hx
      · exact ⟨rfl, rfl, rfl⟩
      · rw [List.mem_singleton.mp hx]
        exact ⟨rfl, rfl, rfl⟩
  rw [← Configuration.services_uncached]
  refine ⟨by decide +kernel,
    cache_keeps_verdicts (fun _ _ _ _ _ => ⟨rfl, rfl⟩) Sample.collisionless_history ?_⟩
  intro e he x hx _ _ _ ht
  obtain ⟨hem, heh, heq⟩ := hevents _ (Moment.mem_begins.mp he)
  obtain ⟨hxm, hxh, hxq⟩ := hevents x hx
  exact Event.alike_of_headers (hem.trans hxm.symm) (heh.trans hxh.symm)
    (heq ▸ List.Pairwise.nil) (hxq ▸ List.Pairwise.nil) ht

namespace Sample

/-- A route of its own to an integration of its own, but with a mapping named like any other. -/
def rival (host : String) : Route where
  id := host
  name := host
  path := "/" ++ host
  mappings := [{ mapping host false true with id := "m" }]

def rivals : Configuration where
  routes := [rival "a", rival "b"]

/-- One of the integrations never works. -/
def oneSided (_ : List Outbound) (o : Outbound) : Reply :=
  if o.url = "http://a" then .response ⟨200, none, "1"⟩ else .response ⟨503, none, ""⟩

def visits : List Step := [.request "/a" "GET" (get none), .request "/b" "GET" (get none)]

end Sample

/-- A mapping gets the answer of another one that has its id, although the configuration has no
problems: the second request of this run fails without a cache and succeeds with one. -/
theorem cache_changes_verdict :
    Sample.rivals.problems = [] ∧ (Sample.rivals.services [] Sample.oneSided).Stateless ∧
      Collisionless
        (Moment.begins ((Sample.rivals.services [] Sample.oneSided).history Sample.visits)) ∧
      ((Sample.rivals.services [] Sample.oneSided).results Sample.visits (.start {})).map
        (·.status) = [.success, .success] ∧
      ((Sample.rivals.uncached.services [] Sample.oneSided).results Sample.visits (.start {})).map
        (·.status) = [.success, .failure] := by
  refine ⟨rfl, ?_, ?_, by decide +kernel, by decide +kernel⟩
  · intro sent sent' o p h
    simp [Configuration.services, Sample.oneSided, h.url]
  · have ha : (Sample.rivals.services [] Sample.oneSided).runnable? "/a" "GET" =
        some (Sample.rival "a") := rfl
    have hb : (Sample.rivals.services [] Sample.oneSided).runnable? "/b" "GET" =
        some (Sample.rival "b") := by
      have hother : Pattern.matches "/a" "/b" = false := by decide +kernel
      simp [Services.runnable?, Configuration.services, Sample.rivals, Route.find?, Route.answers,
        Sample.rival, Sample.mapping, sameLetters, hother]
    unfold Services.history Sample.visits
    simp only [List.foldl]
    rw [Services.begins_of_singleton hb rfl rfl, Services.begins_of_singleton ha rfl rfl]
    refine collisionless_of_tuple (t := ("m", "GET", .obj [], .null)) fun e he => ?_
    rcases List.mem_append.mp he with he | he
    · rw [List.mem_singleton.mp he]
      rfl
    · rw [List.mem_singleton.mp he]
      rfl

end Switchboard
