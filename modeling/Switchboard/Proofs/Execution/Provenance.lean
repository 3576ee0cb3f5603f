import Switchboard.Proofs.Execution.Sequential
import Switchboard.Proofs.Execution.Trailed

/-! Where kept answers come from: each is the data with which the last call under its key has ended
that kept any, and it is as old as that end. Executions may overlap in this. -/
namespace Switchboard

namespace Event

theorem isCached_of_key {e : Event} {k : String} (h : e.key? = some k) :
    e.mapping.isCached = true := by
  by_cases hc : e.mapping.isCached = true
  · exact hc
  · simp [key?, Mapping.key?, hc] at h

/-- Calls of cached mappings that nothing tells apart have the same key. -/
theorem key_eq_of_tuple {e f : Event} (he : e.mapping.isCached = true)
    (hf : f.mapping.isCached = true) (h : e.tuple = f.tuple) : e.key? = f.key? := by
  simp only [tuple, Prod.mk.injEq] at h
  obtain ⟨hid, hmethod, hquery, hbody⟩ := h
  have hupper : Text.upper e.request.method.toList = Text.upper f.request.method.toList :=
    String.ofList_injective hmethod
  simp only [key?, Mapping.key?, he, hf, ite_true, cacheKey, keyBytes, hid, hupper, hquery, hbody]

/-- What waits has the key of its call. -/
theorem key_of_waiting {sv : Services} {e : Event} {p : Pending}
    (h : (e.begun sv).1 = .ok (.waiting p)) :
    p.key = e.key? ∧ ∃ o, e.Asks sv o ∧ (e.begun sv).2.sent = e.before.sent ++ [o] := by
  obtain ⟨-, o, hasks, hsends, hp⟩ := Services.begin_eq_waiting (begin_eq h)
  exact ⟨by rw [hp]; rfl, o, hasks, hsends.sent⟩

/-- A call that is begun leaves alone what is kept. -/
theorem responses_begun (sv : Services) (e : Event) :
    (e.begun sv).2.responses = e.before.responses := by
  rcases h : (e.begun sv).1 with c | (c | p)
  · exact (Services.begin_eq_error (begin_eq h)).responses
  · obtain ⟨data, -, -, ht⟩ := Services.begin_eq_done (begin_eq h)
    rw [ht]
    rfl
  · obtain ⟨-, o, -, hs, -⟩ := Services.begin_eq_waiting (begin_eq h)
    exact hs.responses

end Event

namespace Moment

/-- The data that a moment keeps: a call that has waited ends with it. -/
def stored? (sv : Services) : Moment → Option Json
  | begun _ => none
  | ended _ p s => p.key.bind fun _ => ((sv.finish p).runOn s).1.toOption.bind (·.data)

variable {sv : Services}

/-- A moment that keeps data is the end of a call that succeeded with it. -/
theorem ended_of_stored {e : Event} {p : Pending} {s : Router} {data : Json}
    (h : (ended e p s).stored? sv = some data) :
    ∃ k d, p.key = some k ∧ ((sv.finish p).runOn s).1 = .ok d ∧ d.succeeded = true ∧
      d.fromCache = false ∧ d.data = some data ∧
      ((sv.finish p).runOn s).2.responses =
        s.responses.insert (time sv (ended e p s)) k data := by
  obtain ⟨k, hk, h⟩ := Option.bind_eq_some_iff.mp h
  obtain ⟨d, hd, hdata⟩ := Option.bind_eq_some_iff.mp h
  have hout : ((sv.finish p).runOn s).1 = .ok d := Except.toOption_eq_some.mp hd
  rcases Services.finish_cases (Prod.ext hout rfl) with ⟨x, u, -, rfl, -⟩ |
    ⟨code, made, u, hr, rfl, ht⟩
  · cases hdata
  · obtain rfl : made = data := Option.some.inj hdata
    have hs := Services.sends_of_receive hr
    refine ⟨k, _, hk, hout, rfl, rfl, rfl, ?_⟩
    rw [show ((sv.finish p).runOn s).2 = _ from ht, hk]
    show u.responses.insert u.now k made = _
    rw [hs.responses, hs.now]
    rfl

/-- A moment that keeps no data leaves what is kept alone. -/
theorem responses_of_not_stored {e : Event} {p : Pending} {s : Router}
    (h : (ended e p s).stored? sv = none) :
    ((sv.finish p).runOn s).2.responses = s.responses := by
  rcases hx : (sv.finish p).runOn s with ⟨c | d, t⟩
  · exact (Services.finish_eq_error hx).responses
  · rcases Services.finish_cases hx with ⟨x, u, hr, -, rfl⟩ | ⟨code, data, u, hr, rfl, rfl⟩
    · exact (Services.sends_of_receive hr).responses
    · have hkey : p.key = none := by
        rcases hk : p.key with _ | k
        · rfl
        · simp [stored?, hk, hx, Except.toOption, Mapping.success] at h
      rw [hkey]
      exact (Services.sends_of_receive hr).responses

/-- What an end has kept is the answer to a call with the same key that finds it alive. -/
theorem begun_of_stored {e f : Event} {p : Pending} {s : Router} {data : Json}
    (h : (ended f p s).stored? sv = some data) (hkey : e.key? = p.key)
    (hbefore : e.before.responses = ((sv.finish p).runOn s).2.responses)
    (hcap : s.responses.capacity ≠ 0)
    (hlive : time sv (begun e) - time sv (ended f p s) < s.responses.lifetime) :
    (e.begun sv).1 = .ok (.done (e.mapping.success none true data)) := by
  obtain ⟨k, _, hk, -, -, -, -, hinsert⟩ := ended_of_stored h
  have hek : e.mapping.key? e.request e.body = some k := hkey.trans hk
  have hkept : (sv.ticked e.before).kept? (e.mapping.key? e.request e.body) = some data := by
    rw [hek]
    show e.before.responses.get? (time sv (begun e)) k = some data
    rw [hbefore, hinsert]
    exact Expiring.get?_insert_of_lt hcap hlive k data
  unfold Event.begun
  rw [Services.runOn_begin, hkept]

end Moment

/-- A history that a router may have, and what it then keeps. Executions may overlap: any call may be
begun at any moment, and any call that waits may be ended; what one moment leaves kept, the next one
finds. -/
inductive Course (sv : Services) : List Moment → Expiring Json → Prop
  | start : Course sv [] (Router.start sv.settings).responses
  | begun {h : List Moment} {e : Event} (earlier : Course sv h e.before.responses) :
    Course sv (h ++ [.begun e]) (e.begun sv).2.responses
  | ended {h : List Moment} {e : Event} {p : Pending} {s : Router}
    (earlier : Course sv h s.responses) (hbegun : .begun e ∈ h)
    (hwaits : (e.begun sv).1 = .ok (.waiting p)) :
    Course sv (h ++ [.ended e p s]) ((sv.finish p).runOn s).2.responses

/-- Each kept answer is that of the last end of `h` that keeps any under its key, dated as that
end. -/
structure Traced (sv : Services) (c : Expiring Json) (h : List Moment) : Prop where
  lifetime : c.lifetime = sv.settings.responseSeconds * 1000
  sorted : Fields.Sorted c.entries
  empty : c.capacity = 0 → c.entries = []
  source : ∀ k v, (k, v) ∈ c.entries → ∃ before x after, h = before ++ x :: after ∧
    x.event.key? = some k ∧ x.stored? sv = some v.value ∧ x.time sv = v.since ∧
      ∀ y ∈ after, y.event.key? = some k → y.stored? sv = none

namespace Traced
variable {sv : Services} {c : Expiring Json} {h : List Moment} {x : Moment}

theorem start (sv : Services) : Traced sv (Router.start sv.settings).responses [] where
  lifetime := rfl
  sorted := List.Pairwise.nil
  empty := fun _ => rfl
  source := by
    intro k v hv
    cases hv

theorem skip (ht : Traced sv c h) (hx : x.stored? sv = none) : Traced sv c (h ++ [x]) where
  lifetime := ht.lifetime
  sorted := ht.sorted
  empty := ht.empty
  source := by
    intro k v hv
    obtain ⟨before, y, after, rfl, hkey, hstored, htime, hlast⟩ := ht.source k v hv
    refine ⟨before, y, after ++ [x], by simp, hkey, hstored, htime, ?_⟩
    intro z hz hzk
    rcases List.mem_append.mp hz with hz | hz
    · exact hlast z hz hzk
    · rw [List.mem_singleton.mp hz]
      exact hx

theorem store (ht : Traced sv c h) {k : String} {data : Json} (hk : x.event.key? = some k)
    (hx : x.stored? sv = some data) :
    Traced sv (c.insert (x.time sv) k data) (h ++ [x]) where
  lifetime := by rw [Expiring.lifetime_insert, ht.lifetime]
  sorted := Expiring.sorted_insert ht.sorted (x.time sv) k data
  empty := by
    intro hcap
    rw [Expiring.capacity_insert] at hcap
    rw [Expiring.insert, if_pos hcap]
    exact ht.empty hcap
  source := by
    intro l v hv
    -- Without capacity there would be no entry, and the last one under `k` need not be this one.
    have hcap : c.capacity ≠ 0 := by
      intro hcap
      rw [Expiring.insert, if_pos hcap, ht.empty hcap] at hv
      cases hv
    by_cases hl : l = k
    · subst hl
      have hv' := Expiring.eq_of_mem_insert_self ht.sorted hcap hv
      subst hv'
      exact ⟨h, x, [], rfl, hk, hx, rfl, by simp⟩
    · rcases Expiring.mem_of_mem_insert hv with ⟨heq, -⟩ | hv
      · exact absurd heq hl
      · obtain ⟨before, y, after, rfl, hkey, hstored, htime, hlast⟩ := ht.source l v hv
        refine ⟨before, y, after ++ [x], by simp, hkey, hstored, htime, ?_⟩
        intro z hz hzk
        rcases List.mem_append.mp hz with hz | hz
        · exact hlast z hz hzk
        · rw [List.mem_singleton.mp hz, hk] at hzk
          exact absurd (Option.some.inj hzk).symm hl

end Traced

namespace Course
variable {sv : Services} {h : List Moment} {c : Expiring Json}

/-- What is kept is traced after every moment: begins keep nothing, and an end keeps what it is
traced to. -/
theorem traced (hc : Course sv h c) : Traced sv c h := by
  induction hc with
  | start => exact .start sv
  | @begun h e _ ih =>
    rw [Event.responses_begun]
    exact ih.skip rfl
  | @ended h e p s _ _ hwaits ih =>
    rcases hs : (Moment.ended e p s).stored? sv with _ | data
    · rw [Moment.responses_of_not_stored hs]
      exact ih.skip hs
    · obtain ⟨k, d, hk, -, -, -, -, hresponses⟩ := Moment.ended_of_stored hs
      have hek : e.key? = some k := by rw [← (Event.key_of_waiting hwaits).1, hk]
      rw [hresponses]
      exact ih.store (x := .ended e p s) hek hs

/-- What happened earlier is a course as well, and leads to what the next moment finds. What is ended
has been begun by then, and waits. -/
theorem of_append (hc : Course sv h c) {earlier later : List Moment} {x : Moment}
    (hsplit : h = earlier ++ x :: later) :
    Course sv earlier x.before.responses ∧
      ∀ e p s, x = .ended e p s → .begun e ∈ earlier ∧ (e.begun sv).1 = .ok (.waiting p) := by
  induction hc generalizing later with
  | start => simp at hsplit
  | @begun h e hbefore ih =>
    rcases later.eq_nil_or_concat with rfl | ⟨later, y, rfl⟩
    · obtain ⟨rfl, hlast⟩ := List.append_inj' hsplit rfl
      obtain rfl : Moment.begun e = x := (List.cons.inj hlast).1
      refine ⟨hbefore, ?_⟩
      rintro _ _ _ ⟨⟩
    · rw [List.concat_eq_append, ← List.cons_append, ← List.append_assoc] at hsplit
      exact ih (List.append_inj' hsplit rfl).1
  | @ended h e p s hbefore hbegun hwaits ih =>
    rcases later.eq_nil_or_concat with rfl | ⟨later, y, rfl⟩
    · obtain ⟨rfl, hlast⟩ := List.append_inj' hsplit rfl
      obtain rfl : Moment.ended e p s = x := (List.cons.inj hlast).1
      refine ⟨hbefore, ?_⟩
      rintro _ _ _ ⟨⟩
      exact ⟨hbegun, hwaits⟩
    · rw [List.concat_eq_append, ← List.cons_append, ← List.append_assoc] at hsplit
      exact ih (List.append_inj' hsplit rfl).1

end Course

namespace Services
variable {sv : Services}

/-- A route keeps up the course of its router: the calls that wait have been begun. -/
theorem noted_keeps_course (sv : Services) (r : Request) (ms : List Mapping) :
    (sv.noted r).Keeps ms (fun p => Course sv p.2 p.1.responses)
      (fun q p => .begun q.1 ∈ p.2 ∧ (q.1.begun sv).1 = .ok (.waiting q.2))
      fun p => Course sv p.2 p.1.responses where
  begin := by
    rintro m - body fs p ⟨hc, hfs⟩
    have hnext : Course sv (p.2 ++ [.begun ⟨m, r, body, p.1⟩])
        ((sv.begin m r body).runOn p.1).2.responses := .begun (e := ⟨m, r, body, p.1⟩) hc
    rw [runOn_noted_begin]
    rcases hx : (sv.begin m r body).runOn p.1 with ⟨c | x, t⟩
    · rw [hx] at hnext
      exact .inr ⟨c, _, rfl, hnext⟩
    · rw [hx] at hnext
      refine .inl ⟨_, _, rfl, hnext, fun q hq => ?_⟩
      rcases List.mem_append.mp hq with hq | hq
      · cases x with
        | done c => cases hq
        | waiting pending =>
          obtain rfl := List.mem_singleton.mp hq
          exact ⟨List.mem_append_right _ (List.mem_singleton_self _), congrArg Prod.fst hx⟩
      · exact ⟨List.mem_append_left _ (hfs q hq).1, (hfs q hq).2⟩
  finish := by
    rintro fs ⟨e, pending⟩ hf p ⟨hc, hfs⟩
    obtain ⟨hbegun, hwaits⟩ := hfs _ hf
    have hnext := Course.ended hc hbegun hwaits
    rw [runOn_noted_finish]
    rcases hx : (sv.finish pending).runOn p.1 with ⟨c | c, t⟩
    · rw [hx] at hnext
      exact .inr ⟨c, _, rfl, hnext⟩
    · rw [hx] at hnext
      exact .inl ⟨c, _, rfl, hnext, fun q hq =>
        ⟨List.mem_append_left _ (hfs q hq).1, (hfs q hq).2⟩⟩

/-- The history of a run is a course. -/
theorem course_history (sv : Services) (steps : List Step) :
    Course sv (sv.history steps)
      (steps.foldl sv.note (.start sv.settings, [])).1.responses :=
  notes_preserve (I := fun p => Course sv p.2 p.1.responses)
    (fun step _ => note_preserves (fun _ _ h => h) (fun _ _ h => h)
      (fun _ _ route _ r => sv.noted_keeps_course r route.mappings) step) steps .start

/-- Each answer in a result is that of a call that was done then. -/
theorem calls_of_execute (sv : Services) (path method : String) (r : Request)
    (p : Router × List Moment) {c : Call} (hc : c ∈ (sv.execute path method r p.1).1.calls) :
    ∃ x ∈ (sv.note p (.request path method r)).2, x.call? sv = some c := by
  rcases hroute : sv.runnable? path method with _ | route
  · rw [(execute_of_not_runnable hroute r p.1).1] at hc
    cases hc
  · rw [note_of_runnable hroute]
    rw [(execute_of_runnable hroute r p.1).2] at hc
    rcases hx : (sv.trail route r).runOn p.1 with ⟨x | calls, t⟩
    · rw [hx] at hc
      exact absurd hc List.not_mem_nil
    · rw [hx] at hc
      obtain ⟨ps, g, hg, -, rfl, htrailed⟩ := trail_passes hx
      obtain ⟨q, hq, rfl⟩ := List.mem_map.mp hc
      obtain ⟨y, hy, hcall, -⟩ := Moment.mem_ends.mp (htrailed.perm.mem_iff.mpr hq)
      exact ⟨y, by rw [hg]; exact List.mem_append_right _ hy, hcall⟩

/-- Each answer in the results of a run is that of a call that is done in its history. -/
theorem calls_of_results {steps : List Step} {p : Router × List Moment} {result : Result} {c : Call}
    (hr : result ∈ sv.results steps p.1) (hc : c ∈ result.calls) :
    ∃ x ∈ (steps.foldl sv.note p).2, x.call? sv = some c := by
  induction steps generalizing p with
  | nil => cases hr
  | cons step steps ih =>
    cases step with
    | clock now => exact @ih ({ p.1 with now }, p.2) hr
    | request path method r =>
      rcases List.mem_cons.mp hr with rfl | hr
      · obtain ⟨x, hx, hcall⟩ := sv.calls_of_execute path method r p hc
        exact ⟨x, sv.mem_notes steps hx, hcall⟩
      · exact @ih (sv.note p (.request path method r)) hr

/-- An answer that was kept is one that has not reached its lifetime when the call is begun. -/
theorem kept_of_fromCache {x : Moment} {c : Call} (h : x.call? sv = some c)
    (hc : c.fromCache = true) :
    ∃ e, x = .begun e ∧ ∃ k v, e.key? = some k ∧ (k, v) ∈ e.before.responses.entries ∧
      c.data = some v.value ∧
      ¬ (e.before.responses.lifetime : Int) ≤ x.time sv - v.since := by
  cases x with
  | begun e =>
    obtain ⟨data, hkept, rfl, -⟩ := begin_eq_done (Event.begin_eq (Moment.call?_begun.mp h))
    obtain ⟨k, hk, hget⟩ := Option.bind_eq_some_iff.mp hkept
    obtain ⟨v, hv, hvalue, hlive⟩ := Expiring.mem_of_get? hget
    exact ⟨e, rfl, k, v, hk, hv, by rw [hvalue]; rfl, hlive⟩
  | ended e p s =>
    obtain ⟨-, -, hfresh, -⟩ := finish_accounts (Prod.ext (Moment.call?_ended.mp h) rfl)
    rw [hfresh] at hc
    cases hc

end Services

/-- The end of the call `f` is where the data comes from that `e` has found: `f` is told apart from
`e` by nothing, its mapping keeps answers, it has sent a request and waited for `p`, and at the end
it has succeeded with the data and kept it. The data has not reached the lifetime when `e` is
begun. -/
structure Event.Supplies (sv : Services) (f : Event) (p : Pending) (s : Router) (e : Event)
    (data : Json) : Prop where
  tuple : f.tuple = e.tuple
  isCached : f.mapping.isCached = true
  waited : (f.begun sv).1 = .ok (.waiting p)
  sent : ∃ o, f.Asks sv o ∧ (f.begun sv).2.sent = f.before.sent ++ [o]
  ended : ∃ d, ((sv.finish p).runOn s).1 = .ok d ∧ d.succeeded = true ∧ d.fromCache = false ∧
    d.data = some data
  kept : ∃ k, e.key? = some k ∧ ((sv.finish p).runOn s).2.responses =
    s.responses.insert (Moment.time sv (.ended f p s)) k data
  alive : ¬ ((sv.settings.responseSeconds * 1000 : Nat) : Int) ≤
    Moment.time sv (.begun e) - Moment.time sv (.ended f p s)

namespace Course
variable {sv : Services} {h : List Moment} {c : Expiring Json}

/-- What is kept at a moment is kept for a call that has a key. -/
theorem key_of_stored (hc : Course sv h c) {x : Moment} (hx : x ∈ h) {data : Json}
    (hs : x.stored? sv = some data) : ∃ k, x.event.key? = some k := by
  cases x with
  | begun e => cases hs
  | ended e p s =>
    obtain ⟨earlier, later, hsplit⟩ := List.append_of_mem hx
    have hwaits := ((hc.of_append hsplit).2 e p s rfl).2
    obtain ⟨k, -, hk, -⟩ := Moment.ended_of_stored hs
    exact ⟨k, by rw [← hk, (Event.key_of_waiting hwaits).1]; rfl⟩

/-- An end that keeps data supplies a call with the same key that finds it alive. -/
theorem supplies {before after : List Moment} {f e : Event} {p : Pending} {s : Router}
    {k : String} {data : Json} (hc : Course sv (before ++ .ended f p s :: after) c)
    (hstored : (Moment.ended f p s).stored? sv = some data) (hf : f.key? = some k)
    (he : e.key? = some k) (htuple : f.tuple = e.tuple)
    (halive : ¬ ((sv.settings.responseSeconds * 1000 : Nat) : Int) ≤
      Moment.time sv (.begun e) - Moment.time sv (.ended f p s)) :
    f.Supplies sv p s e data := by
  obtain ⟨-, hwaits⟩ := (hc.of_append rfl).2 f p s rfl
  obtain ⟨hkey, hsent⟩ := Event.key_of_waiting hwaits
  obtain ⟨l, d, hl, hd, hsucceeded, hfresh, hdata, hkept⟩ := Moment.ended_of_stored hstored
  obtain rfl : l = k := by
    rw [hkey, hf] at hl
    exact (Option.some.inj hl).symm
  exact ⟨htuple, Event.isCached_of_key hf, hwaits, hsent,
    ⟨d, hd, hsucceeded, hfresh, hdata⟩, ⟨l, he, hkept⟩, halive⟩

end Course

/-- The history of every run is a course, and each answer in a result is that of a call which is done
in it. In every course, also where executions overlap, an answer that was taken from what is kept is
the data that an earlier end has supplied, and no end between keeps any for the same mapping,
method, query and body. -/
theorem cached_answer_source (sv : Services) :
    (∀ steps, (∃ cache, Course sv (sv.history steps) cache) ∧
      ∀ result ∈ sv.results steps (.start sv.settings), ∀ c ∈ result.calls,
        ∃ x ∈ sv.history steps, x.call? sv = some c) ∧
    ∀ h cache, Course sv h cache → Collisionless (Moment.begins h) →
      ∀ earlier x later c, h = earlier ++ x :: later → x.call? sv = some c → c.fromCache = true →
        ∃ e data before f p s after, x = .begun e ∧ c.data = some data ∧
          earlier = before ++ .ended f p s :: after ∧ .begun f ∈ before ∧
          f.Supplies sv p s e data ∧
          ∀ y ∈ after, y.event.tuple = e.tuple → y.stored? sv = none := by
  refine ⟨fun steps => ⟨⟨_, sv.course_history steps⟩, fun result hr c hc => ?_⟩, ?_⟩
  · exact @Services.calls_of_results sv steps (.start sv.settings, []) result c hr hc
  · rintro h cache hcourse hkeys earlier x later c hsplit hcall hc
    obtain ⟨e, rfl, k, v, hk, hv, hdata, hlive⟩ := Services.kept_of_fromCache hcall hc
    have hbefore := (hcourse.of_append hsplit).1
    have htraced : Traced sv e.before.responses earlier := hbefore.traced
    obtain ⟨before, y, after, rfl, hyk, hstored, htime, hlast⟩ := htraced.source k v hv
    cases y with
    | begun f => cases hstored
    | ended f p s =>
      have hbegun := ((hbefore.of_append rfl).2 f p s rfl).1
      have htuple : f.tuple = e.tuple :=
        hkeys f (Moment.mem_begins.mpr (by simp [hsplit, hbegun])) e
          (Moment.mem_begins.mpr (by simp [hsplit])) k hyk hk
      rw [htraced.lifetime, ← htime] at hlive
      refine ⟨e, v.value, before, f, p, s, after, rfl, hdata, rfl, hbegun,
        hbefore.supplies hstored hyk hk htuple hlive, fun z hz hzt => ?_⟩
      rcases hs : z.stored? sv with _ | data
      · rfl
      · obtain ⟨l, hl⟩ := hbefore.key_of_stored (by simp [hz]) hs
        have hzk : z.event.key? = some k := by
          rw [Event.key_eq_of_tuple (Event.isCached_of_key hl) (Event.isCached_of_key hk) hzt, hk]
        rw [hlast z hz hzk] at hs
        cases hs

namespace Sample

/-- One cached mapping at an integration that always answers. -/
def cachedRoute : Route where
  id := "r"
  name := "r"
  path := "/r"
  mappings := [mapping "a" false true]

def configuration : Configuration where
  routes := [cachedRoute]

/-- The same services, but replies are not there at once and the first one takes 200 s. -/
def slow (sv : Services) : Services :=
  { sv with turn := fun _ _ => 1, drift := fun n => if n = 1 then 200000 else 0 }

def cachedServices : Services :=
  slow (configuration.services [] fun _ _ => .response ⟨200, none, ""⟩)

def get (body : Option Json) : Request := ⟨"GET", [], body, []⟩

def steps : List Step :=
  [.request "/r" "GET" (get none), .clock 400000, .request "/r" "GET" (get (some .null))]

def first : Event := ⟨mapping "a" false true, get none, none, .start {}⟩

/-- What the first call waits for. -/
def awaited : Pending :=
  ⟨mapping "a" false true, first.key?, .response ⟨200, none, ""⟩, 1⟩

def second : Event :=
  ⟨mapping "a" false true, get (some .null), some .null,
    { (cachedServices.execute "/r" "GET" (get none) (.start {})).2 with now := 400000 }⟩

theorem begun_second : (second.begun cachedServices).1 =
    .ok (.done (second.mapping.success none true .null)) :=
  @Moment.begun_of_stored _ _ first awaited (first.begun cachedServices).2 _ rfl
    (Event.key_eq_of_tuple rfl rfl rfl) rfl (by decide) (by decide)

theorem history_steps : cachedServices.history steps =
    [.begun first, .ended first awaited (first.begun cachedServices).2, .begun second] := by
  have hfirst : (cachedServices.note (.start {}, []) (.request "/r" "GET" (get none))).2 =
      [.begun first, .ended first awaited (first.begun cachedServices).2] :=
    Services.note_of_singleton rfl rfl rfl _ _
  have hsecond : cachedServices.history steps =
      (cachedServices.note (.start {}, []) (.request "/r" "GET" (get none))).2 ++
        second.moments cachedServices :=
    Services.note_of_singleton rfl rfl rfl _ _
  rw [hsecond, hfirst, Event.moments, begun_second]
  rfl

theorem collisionless_history :
    Collisionless (Moment.begins (cachedServices.history steps)) := by
  rw [history_steps]
  refine collisionless_of_tuple (t := first.tuple) fun e he => ?_
  rcases List.mem_cons.mp he with rfl | he
  · rfl
  · rw [List.mem_singleton.mp he]
    rfl

end Sample

/-- The answer is kept when it has come, and is alive 400 s after the request. -/
theorem cached_answer_source_hit :
    ∃ f p s e c data,
      Sample.cachedServices.history Sample.steps = [.begun f, .ended f p s, .begun e] ∧
      (Moment.begun e).call? Sample.cachedServices = some c ∧ c.fromCache = true ∧
      c.data = some data ∧ f.Supplies Sample.cachedServices p s e data ∧
      Moment.time Sample.cachedServices (.begun f) = 0 ∧
      Moment.time Sample.cachedServices (.ended f p s) = 200000 ∧
      Moment.time Sample.cachedServices (.begun e) = 400000 := by
  obtain ⟨hruns, hcourses⟩ := cached_answer_source Sample.cachedServices
  obtain ⟨⟨cache, hcourse⟩, -⟩ := hruns Sample.steps
  have hcall : (Moment.begun Sample.second).call? Sample.cachedServices =
      some (Sample.second.mapping.success none true .null) :=
    Moment.call?_begun.mpr Sample.begun_second
  have hsplit : Sample.cachedServices.history Sample.steps =
      [.begun Sample.first, .ended Sample.first Sample.awaited _] ++ .begun Sample.second :: [] :=
    Sample.history_steps
  obtain ⟨e, data, before, f, p, s, after, he, hdata, hearlier, -, hsupplies, -⟩ :=
    hcourses _ cache hcourse Sample.collisionless_history _ _ _ _ hsplit hcall rfl
  obtain rfl : Sample.second = e := Moment.begun.inj he
  have hmem : Moment.ended f p s ∈
      [.begun Sample.first, .ended Sample.first Sample.awaited
        (Sample.first.begun Sample.cachedServices).2] := by
    rw [hearlier]
    exact List.mem_append_right _ List.mem_cons_self
  rcases List.mem_cons.mp hmem with h | h
  · cases h
  · obtain ⟨rfl, rfl, rfl⟩ := Moment.ended.inj (List.mem_singleton.mp h)
    exact ⟨_, _, _, _, _, data, Sample.history_steps, hcall, rfl, hdata, hsupplies, rfl, rfl, rfl⟩

end Switchboard
