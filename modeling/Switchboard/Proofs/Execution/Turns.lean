import Switchboard.Proofs.Execution.Moments

/-! Calls of all mappings of a list at the same time. They are begun in the order of the mappings,
all before one that waits is ended, and end in the order of their turns. -/
namespace Switchboard

/-- The same calls in the order of their turns, those of one turn in the order in which they were. -/
structure InTurns {α : Type} (turn : α → Nat) (as bs : List α) : Prop where
  perm : bs.Perm as
  ordered : bs.Pairwise fun a b => turn a ≤ turn b
  stable : ∀ n, bs.filter (turn · = n) = as.filter (turn · = n)

namespace InTurns
variable {α : Type} {turn : α → Nat} {as bs : List α} {n : Nat}

theorem of_le_zero (h : ∀ a ∈ as, turn a ≤ 0) : InTurns turn as as where
  perm := .refl _
  ordered := by
    refine List.Pairwise.imp_of_mem ?_ (List.pairwise_of_forall fun _ _ => trivial)
    intro a b ha _ _
    exact Nat.le_trans (h a ha) (Nat.zero_le _)
  stable := fun _ => rfl

/-- Of some turns, those of one of them. -/
theorem filter_turn {p : Nat → Prop} [DecidablePred p] (k : Nat) :
    (as.filter fun a => p (turn a)).filter (turn · = k) =
      if p k then as.filter (turn · = k) else [] := by
  rw [List.filter_filter]
  by_cases hp : p k
  · rw [if_pos hp]
    refine List.filter_congr fun a _ => ?_
    by_cases ha : turn a = k
    · simp [ha, hp]
    · simp [ha]
  · rw [if_neg hp, List.filter_eq_nil_iff]
    intro a _ ha
    simp only [Bool.and_eq_true, decide_eq_true_eq] at ha
    exact hp (ha.1 ▸ ha.2)

/-- Those of the next turn come behind those of the turns up to then. -/
theorem next (h : InTurns turn (as.filter (turn · ≤ n)) bs) (has : ∀ a ∈ as, turn a ≤ n + 1) :
    InTurns turn as (bs ++ as.filter (turn · = n + 1)) where
  perm := by
    have hlate : as.filter (turn · = n + 1) = as.filter (fun a => !decide (turn a ≤ n)) := by
      refine List.filter_congr fun a ha => ?_
      have hle := has a ha
      by_cases heq : turn a = n + 1
      · simp [heq]
      · have hlt : turn a ≤ n := by omega
        simp [heq, hlt]
    rw [hlate]
    exact (h.perm.append_right _).trans (List.filter_append_perm _ _)
  ordered := by
    refine List.pairwise_append.mpr ⟨h.ordered, ?_, ?_⟩
    · refine List.Pairwise.imp_of_mem ?_ (List.pairwise_of_forall fun _ _ => trivial)
      intro a b ha hb _
      have ha := of_decide_eq_true (List.mem_filter.mp ha).2
      have hb := of_decide_eq_true (List.mem_filter.mp hb).2
      omega
    · intro a ha b hb
      have ha := of_decide_eq_true (List.mem_filter.mp (h.perm.mem_iff.mp ha)).2
      have hb := of_decide_eq_true (List.mem_filter.mp hb).2
      omega
  stable := by
    intro k
    rw [List.filter_append, h.stable, filter_turn (p := (· ≤ n)), filter_turn (p := (· = n + 1))]
    by_cases hk : k ≤ n
    · have hne : k ≠ n + 1 := by omega
      rw [if_pos hk, if_neg hne, List.append_nil]
    · rw [if_neg hk, List.nil_append]
      by_cases hlast : k = n + 1
      · rw [if_pos hlast]
      · rw [if_neg hlast]
        refine (List.filter_eq_nil_iff.mpr fun a ha hak => ?_).symm
        have hle := has a ha
        have hturn : turn a = k := of_decide_eq_true hak
        omega

end InTurns

namespace Services

/-- What comes to its end has done so with this result, and what it has written down is what has
passed. -/
def Tells {α : Type} (sv : Services) (x : Effect (Router × List Moment) α)
    (Q : α → List Moment → Prop) : Prop :=
  ∀ p a q, x.runOn p = (.ok a, q) → ∃ g, q.2 = p.2 ++ g ∧ sv.Passes p.1 g q.1 ∧ Q a g

namespace Tells
variable {α β : Type} {sv : Services} {x : Effect (Router × List Moment) α}
  {Q Q' : α → List Moment → Prop} {T : β → List Moment → Prop}

theorem pure {a : α} (h : Q a []) : sv.Tells (Pure.pure a) Q := by
  rintro p a q ⟨⟩
  exact ⟨[], by simp, .nil _, h⟩

theorem imp (h : sv.Tells x Q) (hQ : ∀ a g, Q a g → Q' a g) : sv.Tells x Q' := by
  intro p a q hrun
  obtain ⟨g, hg, hpasses, hq⟩ := h p a q hrun
  exact ⟨g, hg, hpasses, hQ a g hq⟩

theorem bind {f : α → Effect (Router × List Moment) β} (hx : sv.Tells x Q)
    (hf : ∀ a g, Q a g → sv.Tells (f a) fun b g' => T b (g ++ g')) : sv.Tells (x >>= f) T := by
  intro p b q hrun
  obtain ⟨a, p', hxrun, hrun⟩ := Effect.runOn_bind_eq_ok hrun
  obtain ⟨g, hg, hpasses, hq⟩ := hx p a p' hxrun
  obtain ⟨g', hg', hpasses', ht⟩ := hf a g hq p' b q hrun
  exact ⟨g ++ g', by rw [hg', hg, List.append_assoc], hpasses.append hpasses', ht⟩

end Tells
end Services

namespace Moment
variable {sv : Services} {g h : List Moment}

@[simp] theorem begins_nil : begins [] = [] := rfl

@[simp] theorem ends_nil : ends sv [] = [] := rfl

@[simp] theorem begins_append : begins (g ++ h) = begins g ++ begins h := List.filterMap_append

@[simp] theorem ends_append : ends sv (g ++ h) = ends sv g ++ ends sv h := List.filterMap_append

end Moment

/-- How far a call has come after some turns. -/
inductive Event.Stage (sv : Services) (n : Nat) (e : Event) : Progress (Event × Pending) → Prop
  | done {c : Call} (h : e.Ends sv c) (ht : e.turn sv ≤ n) : Stage sv n e (.done c)
  | waiting {p : Pending} (h : (e.begun sv).1 = .ok (.waiting p)) (ht : n < e.turn sv) :
    Stage sv n e (.waiting (e, p))

/-- A call that was begun, and how far it has come. -/
abbrev Slot := Event × Progress (Event × Pending)

namespace Slot

def done? (z : Slot) : Option (Event × Call) := z.2.call?.map fun c => (z.1, c)

/-- The calls that are done. -/
def doneOf (zs : List Slot) : List (Event × Call) := zs.filterMap done?

@[simp] theorem doneOf_nil : doneOf [] = [] := rfl

theorem doneOf_cons (z : Slot) (zs : List Slot) : doneOf (z :: zs) = doneOf [z] ++ doneOf zs :=
  List.filterMap_append (l := [z])

theorem map_doneOf (zs : List Slot) :
    (doneOf zs).map (·.2) = (zs.map (·.2)).filterMap Progress.call? := by
  unfold doneOf
  rw [List.map_filterMap, List.filterMap_map]
  congr 1
  funext ⟨e, x⟩
  cases x <;> rfl

/-- All slots have come as far as `n` turns bring them. -/
def At (sv : Services) (n : Nat) (zs : List Slot) : Prop := ∀ z ∈ zs, z.1.Stage sv n z.2

variable {sv : Services} {n : Nat} {zs : List Slot}

theorem mem_doneOf (h : At sv n zs) {p : Event × Call} (hp : p ∈ doneOf zs) :
    p.1.Ends sv p.2 ∧ p.1.turn sv ≤ n ∧ ∃ z ∈ zs, z.1 = p.1 := by
  obtain ⟨⟨e, x⟩, hz, hdone⟩ := List.mem_filterMap.mp hp
  have hstage : e.Stage sv n x := h _ hz
  cases hstage with
  | done hends ht =>
    cases hdone
    exact ⟨hends, ht, _, hz, rfl⟩
  | waiting _ _ => cases hdone

/-- Where no turn is left, all calls are done. -/
theorem map_doneOf_of_le (h : At sv n zs) (hle : ∀ z ∈ zs, z.1.turn sv ≤ n) :
    (doneOf zs).map (·.1) = zs.map (·.1) := by
  induction zs with
  | nil => rfl
  | cons z zs ih =>
    obtain ⟨hz, hzs⟩ := List.forall_mem_cons.mp h
    obtain ⟨hzle, hzsle⟩ := List.forall_mem_cons.mp hle
    rw [doneOf_cons, List.map_append, ih hzs hzsle]
    obtain ⟨e, x⟩ := z
    have hstage : e.Stage sv n x := hz
    cases hstage with
    | done _ _ => rfl
    | waiting _ ht => exact absurd hzle (Nat.not_le_of_lt ht)

end Slot

namespace Services
open Moment
variable {sv : Services} {r : Request}

theorem turn_of_waiting {e : Event} {p : Pending} (h : (e.begun sv).1 = .ok (.waiting p)) :
    e.turn sv = p.turn := by
  simp [Event.turn, h]

theorem begin_tells (sv : Services) (r : Request) (m : Mapping) (body : Option Json) :
    sv.Tells ((sv.noted r).begin m body) fun x g => ∃ s, g = [.begun ⟨m, r, body, s⟩] ∧
      (Event.begun sv ⟨m, r, body, s⟩).1.map
        (Progress.map fun q => ((⟨m, r, body, s⟩ : Event), q)) = .ok x := by
  rintro ⟨s, h⟩ x q hrun
  rw [runOn_noted_begin] at hrun
  obtain ⟨hx, rfl⟩ := Prod.mk.inj hrun
  exact ⟨[.begun ⟨m, r, body, s⟩], rfl, .cons (.begun ⟨m, r, body, s⟩) (.nil _), s, rfl, hx⟩

theorem finish_tells (sv : Services) (r : Request) (e : Event) (p : Pending) :
    sv.Tells ((sv.noted r).finish (e, p)) fun c g => ∃ s, g = [.ended e p s] ∧
      ((sv.finish p).runOn s).1 = .ok c := by
  rintro ⟨s, h⟩ c q hrun
  rw [runOn_noted_finish] at hrun
  obtain ⟨hc, rfl⟩ := Prod.mk.inj hrun
  exact ⟨[.ended e p s], rfl, .cons (.ended e p s) (.nil _), s, rfl, hc⟩

theorem ends_begun {e : Event} {x : Progress Pending} (h : (e.begun sv).1 = .ok x) :
    ends sv [.begun e] = (x.call?.map fun c => (e, c)).toList := by
  cases x with
  | done c => simp [ends, call?, event, h, Except.toOption, Progress.call?]
  | waiting p => simp [ends, call?, h, Except.toOption, Progress.call?]

theorem ends_ended {e : Event} {p : Pending} {s : Router} {c : Call}
    (h : ((sv.finish p).runOn s).1 = .ok c) : ends sv [.ended e p s] = [(e, c)] := by
  simp [ends, call?, event, h, Except.toOption]

/-- How a call is begun: it is done then and has not waited, or it waits. -/
theorem begun_tells (sv : Services) (r : Request) (m : Mapping) (body : Option Json) :
    sv.Tells ((sv.noted r).begin m body) fun x g => ∃ s, let e : Event := ⟨m, r, body, s⟩
      begins g = [e] ∧ ends sv g = Slot.doneOf [(e, x)] ∧
      ((∃ c, x = .done c ∧ e.Ends sv c ∧ e.turn sv = 0) ∨
        ∃ p, x = .waiting (e, p) ∧ (e.begun sv).1 = .ok (.waiting p)) := by
  refine (sv.begin_tells r m body).imp ?_
  rintro x _ ⟨s, rfl, hx⟩
  refine ⟨s, rfl, ?_⟩
  rcases hbegun : (Event.begun sv ⟨m, r, body, s⟩).1 with c | (c | p)
  · rw [hbegun] at hx
    cases hx
  · rw [hbegun] at hx
    cases hx
    exact ⟨ends_begun hbegun, .inl ⟨c, rfl, .atOnce hbegun, by simp [Event.turn, hbegun]⟩⟩
  · rw [hbegun] at hx
    cases hx
    exact ⟨ends_begun hbegun, .inr ⟨p, rfl, rfl⟩⟩

/-- A turn that is the next one for a call: it ends if that is its turn. -/
theorem advance_tells {n : Nat} {e : Event} {x : Progress (Event × Pending)}
    (hx : (∃ c, x = .done c ∧ e.Ends sv c ∧ e.turn sv ≤ n) ∨
      ∃ p, x = .waiting (e, p) ∧ (e.begun sv).1 = .ok (.waiting p)) :
    sv.Tells ((sv.noted r).advance n x) fun y g => e.Stage sv n y ∧ begins g = [] ∧
      Slot.doneOf [(e, x)] ++ ends sv g = Slot.doneOf [(e, y)] := by
  unfold Caller.advance
  rcases hx with ⟨c, rfl, hends, ht⟩ | ⟨p, rfl, hbegun⟩
  · exact .pure ⟨.done hends ht, rfl, rfl⟩
  · have hturn : (sv.noted r).turn (e, p) = e.turn sv := (turn_of_waiting hbegun).symm
    by_cases ht : e.turn sv ≤ n
    · simp only [hturn, if_pos ht]
      refine (sv.finish_tells r e p).bind ?_
      rintro c _ ⟨s, rfl, hend⟩
      exact .pure ⟨.done (.later hbegun hend) ht, rfl, ends_ended hend⟩
    · simp only [hturn, if_neg ht]
      exact .pure ⟨.waiting hbegun (by omega), rfl, rfl⟩

/-- The turn of a call that is done, and of others. -/
abbrev turnOf (sv : Services) (p : Event × Call) : Nat := p.1.turn sv

/-- What ends in a turn are the calls of this turn, and those done before were of earlier ones. -/
theorem ends_of_stages {n : Nat} {e : Event} {x y : Progress (Event × Pending)}
    {es : List (Event × Call)} (hx : e.Stage sv n x) (hy : e.Stage sv (n + 1) y)
    (h : Slot.doneOf [(e, x)] ++ es = Slot.doneOf [(e, y)]) :
    es = (Slot.doneOf [(e, y)]).filter (sv.turnOf · = n + 1) ∧
      (Slot.doneOf [(e, y)]).filter (sv.turnOf · ≤ n) = Slot.doneOf [(e, x)] := by
  cases hx with
  | done _ ht =>
    cases hy with
    | done _ _ =>
      obtain ⟨hc, rfl⟩ := List.cons.inj h
      cases hc
      have hne : e.turn sv ≠ n + 1 := by omega
      simp [Slot.doneOf, Slot.done?, Progress.call?, ht, hne]
    | waiting _ _ => cases h
  | waiting _ ht =>
    obtain rfl : es = Slot.doneOf [(e, y)] := h
    cases hy with
    | done _ hle =>
      have heq : e.turn sv = n + 1 := by omega
      simp [Slot.doneOf, Slot.done?, Progress.call?, heq]
    | waiting _ _ => exact ⟨rfl, rfl⟩

/-- One turn for all calls of a batch. -/
theorem round_tells {n : Nat} {zs : List Slot} (hzs : Slot.At sv n zs) :
    sv.Tells (Effect.each ((sv.noted r).advance (n + 1)) (zs.map (·.2))) fun ys g =>
      ∃ zs', zs'.map (·.2) = ys ∧ zs'.map (·.1) = zs.map (·.1) ∧ Slot.At sv (n + 1) zs' ∧
        begins g = [] ∧ ends sv g = (Slot.doneOf zs').filter (sv.turnOf · = n + 1) ∧
        (Slot.doneOf zs').filter (sv.turnOf · ≤ n) = Slot.doneOf zs := by
  induction zs with
  | nil => exact .pure ⟨[], rfl, rfl, List.forall_mem_nil _, rfl, rfl, rfl⟩
  | cons z zs ih =>
    obtain ⟨e, x⟩ := z
    obtain ⟨hz, hrest⟩ := List.forall_mem_cons.mp hzs
    have hstage : e.Stage sv n x := hz
    have hx : (∃ c, x = .done c ∧ e.Ends sv c ∧ e.turn sv ≤ n + 1) ∨
        ∃ p, x = .waiting (e, p) ∧ (e.begun sv).1 = .ok (.waiting p) := by
      cases hstage with
      | done hends ht => exact .inl ⟨_, rfl, hends, by omega⟩
      | waiting hbegun _ => exact .inr ⟨_, rfl, hbegun⟩
    refine (advance_tells (r := r) hx).bind ?_
    rintro y g ⟨hy, hbegins, hdone⟩
    obtain ⟨hends, hbefore⟩ := ends_of_stages hstage hy hdone
    refine (ih hrest).bind ?_
    rintro ys g' ⟨zs', rfl, hsame, hzs', hbegins', hends', hbefore'⟩
    refine .pure ⟨(e, y) :: zs', rfl, by rw [List.map_cons, hsame]; rfl,
      List.forall_mem_cons.mpr ⟨hy, hzs'⟩, ?_, ?_, ?_⟩
    · simp [hbegins, hbegins']
    · simp only [List.append_nil, ends_append, hends, hends']
      rw [Slot.doneOf_cons (e, y) zs', List.filter_append]
    · rw [Slot.doneOf_cons (e, y) zs', List.filter_append, hbefore, hbefore', ← Slot.doneOf_cons]

/-- As many turns as there may be. -/
theorem settle_tells {zs : List Slot} (hzs : Slot.At sv 0 zs) (n : Nat) :
    sv.Tells ((sv.noted r).settle n (zs.map (·.2))) fun ys g =>
      ∃ zs', zs'.map (·.2) = ys ∧ zs'.map (·.1) = zs.map (·.1) ∧ Slot.At sv n zs' ∧
        begins g = [] ∧ InTurns sv.turnOf (Slot.doneOf zs') (Slot.doneOf zs ++ ends sv g) := by
  induction n with
  | zero =>
    refine .pure ⟨zs, rfl, rfl, hzs, rfl, ?_⟩
    rw [ends_nil, List.append_nil]
    exact .of_le_zero fun p hp => (Slot.mem_doneOf hzs hp).2.1
  | succ n ih =>
    refine ih.bind ?_
    rintro _ g ⟨zs', rfl, hsame, hzs', hbegins, hturns⟩
    refine (round_tells hzs').imp ?_
    rintro ys g' ⟨zs'', rfl, hsame', hzs'', hbegins', hends', hbefore'⟩
    refine ⟨zs'', rfl, hsame'.trans hsame, hzs'', by simp [hbegins, hbegins'], ?_⟩
    rw [ends_append, ← List.append_assoc, hends']
    rw [← hbefore'] at hturns
    exact hturns.next fun p hp => (Slot.mem_doneOf hzs'' hp).2.1

/-- The begins of all calls of a batch, and the ends of those that need not wait. -/
theorem beginAll_tells (sv : Services) (r : Request) (body : Option Json) (ms : List Mapping) :
    sv.Tells ((sv.noted r).beginAll body ms) fun xs g =>
      ∃ zs, zs.map (·.2) = xs ∧ Slot.At sv 0 zs ∧ zs.map (·.1.mapping) = ms ∧
        (∀ z ∈ zs, z.1.request = r ∧ z.1.body = body) ∧ begins g = zs.map (·.1) ∧
        ends sv g = Slot.doneOf zs := by
  induction ms with
  | nil => exact .pure ⟨[], rfl, List.forall_mem_nil _, rfl, List.forall_mem_nil _, rfl, rfl⟩
  | cons m ms ih =>
    refine Tells.bind (Q := fun y g => ∃ s, let e : Event := ⟨m, r, body, s⟩
      e.Stage sv 0 y ∧ begins g = [e] ∧ ends sv g = Slot.doneOf [(e, y)]) ?_ ?_
    · refine (sv.begun_tells r m body).bind ?_
      rintro x g ⟨s, hbegins, hends, hx⟩
      refine (advance_tells (r := r) (e := ⟨m, r, body, s⟩) ?_).imp ?_
      · exact hx.imp_left fun ⟨c, hc, hend, ht⟩ => ⟨c, hc, hend, Nat.le_of_eq ht⟩
      · rintro y g' ⟨hy, hbegins', hdone⟩
        exact ⟨s, hy, by simp [hbegins, hbegins'], by rw [ends_append, hends, hdone]⟩
    · rintro y g ⟨s, hy, hbegins, hends⟩
      refine ih.bind ?_
      rintro xs g' ⟨zs, rfl, hzs, rfl, hsame, hbegins', hends'⟩
      refine .pure ⟨(⟨m, r, body, s⟩, y) :: zs, rfl, List.forall_mem_cons.mpr ⟨hy, hzs⟩, rfl,
        List.forall_mem_cons.mpr ⟨⟨rfl, rfl⟩, hsame⟩, ?_, ?_⟩
      · simp [hbegins, hbegins']
      · simp only [List.append_nil, ends_append, hends, hends']
        rw [Slot.doneOf_cons (_, y) zs]

/-- A call that waits does so for no later turn than the last one. -/
theorem turn_le_lastTurn {zs : List Slot} (hzs : Slot.At sv 0 zs) (z : Slot) (hz : z ∈ zs) :
    z.1.turn sv ≤ (sv.noted r).lastTurn (zs.map (·.2)) := by
  obtain ⟨e, x⟩ := z
  have hstage : e.Stage sv 0 x := hzs _ hz
  cases hstage with
  | done _ ht => exact Nat.le_trans ht (Nat.zero_le _)
  | @waiting p hbegun _ =>
    have hturn : (sv.noted r).turn (e, p) = e.turn sv := (turn_of_waiting hbegun).symm
    rw [← hturn]
    exact Caller.turn_le_lastTurn (List.mem_map_of_mem (f := (·.2)) hz)

end Services

/-- Calls of all mappings of a list together: each is begun once and in its place, all before one
that waits has ended, and they end in the order of their turns. -/
structure Together (sv : Services) (r : Request) (body : Option Json) (ms : List Mapping)
    (ps : List (Event × Call)) (g : List Moment) : Prop where
  mapping_eq : ps.map (·.1.mapping) = ms
  request : ∀ p ∈ ps, p.1.request = r
  body : ∀ p ∈ ps, p.1.body = body
  outcome : ∀ p ∈ ps, p.1.Ends sv p.2
  begins_eq : Moment.begins g = ps.map (·.1)
  begins_first : ∃ first rest, g = first ++ rest ∧ Moment.begins rest = [] ∧
    ∀ p ∈ Moment.ends sv first, sv.turnOf p = 0
  inTurns : InTurns sv.turnOf ps (Moment.ends sv g)

namespace Services
open Moment
variable {sv : Services} {r : Request}

theorem callAll_tells (sv : Services) (r : Request) (body : Option Json) (ms : List Mapping) :
    sv.Tells (Strategy.callAll (sv.noted r) body ms) fun calls g =>
      ∃ ps, ps.map (·.2) = calls ∧ Together sv r body ms ps g := by
  refine (sv.beginAll_tells r body ms).bind ?_
  rintro _ g ⟨zs, rfl, hzs, hms, hsame, hbegins, hends⟩
  refine (settle_tells hzs _).bind ?_
  rintro _ g' ⟨zs', rfl, hevents, hzs', hbegins', hturns⟩
  have hmem : ∀ z' ∈ zs', ∃ z ∈ zs, z.1 = z'.1 := fun z' hz' =>
    List.mem_map.mp (hevents ▸ List.mem_map_of_mem (f := (·.1)) hz')
  have hlast : ∀ z' ∈ zs', z'.1.turn sv ≤ (sv.noted r).lastTurn (zs.map (·.2)) := by
    intro z' hz'
    obtain ⟨z, hz, heq⟩ := hmem z' hz'
    exact heq ▸ turn_le_lastTurn hzs z hz
  have hdone := (Slot.map_doneOf_of_le hzs' hlast).trans hevents
  have hevent : ∀ p ∈ Slot.doneOf zs', p.1.request = r ∧ p.1.body = body := by
    intro p hp
    obtain ⟨-, -, z', hz', hp⟩ := Slot.mem_doneOf hzs' hp
    obtain ⟨z, hz, hzz'⟩ := hmem z' hz'
    rw [← hp, ← hzz']
    exact hsame z hz
  refine .pure ⟨Slot.doneOf zs', Slot.map_doneOf zs', ?_, fun p hp => (hevent p hp).1,
    fun p hp => (hevent p hp).2, fun p hp => (Slot.mem_doneOf hzs' hp).1, ?_,
    ⟨g, g', ?_, hbegins', ?_⟩, ?_⟩
  · have hmapped := congrArg (List.map Event.mapping) hdone
    rw [List.map_map, List.map_map] at hmapped
    exact hmapped.trans hms
  · simp [hbegins, hbegins', hdone]
  · rw [List.append_nil]
  · intro p hp
    rw [hends] at hp
    exact Nat.le_zero.mp (Slot.mem_doneOf hzs hp).2.1
  · simpa [hends] using hturns

end Services
end Switchboard
