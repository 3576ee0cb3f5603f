import Switchboard.Proofs.Except
import Switchboard.Proofs.Execution.History

/-! What the begins and ends of calls add up to: requests go out when calls are begun, in this order,
and updates are written when calls end, in that order. Nothing else is sent or written. -/
namespace Switchboard

namespace Event

/-- What a call asks its integration for. -/
def Asks (sv : Services) (e : Event) (o : Outbound) : Prop :=
  sv.Asks e.mapping e.request e.body (sv.ticked e.before) o

/-- The call found nothing kept, and its request is out. -/
def waits (sv : Services) (e : Event) : Bool :=
  match (e.begun sv).1 with
  | .ok (.waiting _) => true
  | _ => false

variable {sv : Services} {e : Event} {c : Call}

theorem waits_iff : e.waits sv = true ↔ ∃ p, (e.begun sv).1 = .ok (.waiting p) := by
  unfold waits
  rcases (e.begun sv).1 with d | d | p <;> simp

theorem begin_eq {x : Except Crash (Progress Pending)} (h : (e.begun sv).1 = x) :
    (sv.begin e.mapping e.request e.body).runOn e.before = (x, (e.begun sv).2) := Prod.ext h rfl

/-- Whose call it is, that it is complete, and whether its data was kept. -/
theorem Ends.facts (h : e.Ends sv c) :
    c.IsOf e.mapping ∧ c.IsSettled ∧ (c.fromCache = !e.waits sv) := by
  cases h with
  | atOnce h =>
    obtain ⟨data, -, rfl, -⟩ := Services.begin_eq_done (begin_eq h)
    obtain ⟨hof, hsettled⟩ := Call.isSettled_success e.mapping none true data
    exact ⟨hof, hsettled, by simp [waits, h, Mapping.success]⟩
  | @later p s h hend =>
    obtain ⟨-, o, -, -, rfl⟩ := Services.begin_eq_waiting (begin_eq h)
    obtain ⟨hof, hsettled, hfresh, -⟩ := Services.finish_accounts (Prod.ext hend rfl)
    exact ⟨hof, hsettled, by simp [waits, h, hfresh]⟩

end Event

namespace Moment
variable {sv : Services} {x : Moment}

theorem call?_begun {e : Event} {c : Call} :
    (begun e).call? sv = some c ↔ (e.begun sv).1 = .ok (.done c) := by
  simp only [call?]
  rcases (e.begun sv).1 with d | d | p <;> simp [Except.toOption, Progress.call?]

theorem call?_ended {e : Event} {p : Pending} {s : Router} {c : Call} :
    (ended e p s).call? sv = some c ↔ ((sv.finish p).runOn s).1 = .ok c :=
  Except.toOption_eq_some

/-- The requests that go out with a moment. -/
theorem after_sent (sv : Services) (x : Moment) :
    ∃ os, (x.after sv).sent = x.before.sent ++ os ∧
      List.Forall₂ (fun e o => e.Asks sv o) ((begins [x]).filter (·.waits sv)) os := by
  have hnone {e : Event} (h : ∀ p, (e.begun sv).1 ≠ .ok (.waiting p)) :
      (begins [begun e]).filter (·.waits sv) = [] := by
    have hwaits : ¬ e.waits sv = true := fun hw => by
      obtain ⟨p, hp⟩ := Event.waits_iff.mp hw
      exact h p hp
    exact List.filter_cons_of_neg hwaits
  cases x with
  | begun e =>
    rcases h : (e.begun sv).1 with c | (c | p)
    · have hs := (Services.begin_eq_error (Event.begin_eq h)).sent
      refine ⟨[], hs, ?_⟩
      rw [hnone (by simp [h])]
      exact .nil
    · obtain ⟨data, -, -, ht⟩ := Services.begin_eq_done (Event.begin_eq h)
      refine ⟨[], ?_, ?_⟩
      · rw [after, ht]
        simp [before, Services.reported]
      · rw [hnone (by simp [h])]
        exact .nil
    · obtain ⟨-, o, hasks, hs, -⟩ := Services.begin_eq_waiting (Event.begin_eq h)
      refine ⟨[o], hs.sent, ?_⟩
      have hwaits : e.waits sv = true := Event.waits_iff.mpr ⟨p, h⟩
      have hone : (begins [begun e]).filter (·.waits sv) = [e] := List.filter_cons_of_pos hwaits
      rw [hone]
      exact .cons hasks .nil
  | ended e p s =>
    refine ⟨[], ?_, .nil⟩
    rw [List.append_nil]
    rcases h : (sv.finish p).runOn s with ⟨c | c, t⟩
    · have hs := (Services.finish_eq_error h).sent
      simpa [after, before, h] using hs
    · obtain ⟨-, -, -, hsent, -⟩ := Services.finish_accounts h
      simpa [after, before, h] using hsent

/-- The updates that are written with a moment: one if a call is done with it. -/
theorem after_updates (sv : Services) (x : Moment) :
    (x.after sv).updates = x.before.updates ++
      (ends sv [x]).map fun p => (p.2.update, sv.metrics x.before.updates p.2.update) := by
  have hends : ∀ o, x.call? sv = o → ends sv [x] = (o.map fun c => (x.event, c)).toList := by
    rintro o rfl
    unfold ends
    cases h : x.call? sv <;> simp [h]
  cases x with
  | begun e =>
    rcases h : (e.begun sv).1 with c | (c | p)
    · rw [hends none (by simp [call?, h, Except.toOption])]
      have hs := (Services.begin_eq_error (Event.begin_eq h)).updates
      simpa [after, before] using hs
    · rw [hends (some c) (call?_begun.mpr h)]
      obtain ⟨data, -, -, ht⟩ := Services.begin_eq_done (Event.begin_eq h)
      simp [after, before, ht, Services.reported]
    · rw [hends none (by simp [call?, h, Except.toOption, Progress.call?])]
      obtain ⟨-, o, -, hs, -⟩ := Services.begin_eq_waiting (Event.begin_eq h)
      simpa [after, before] using hs.updates
  | ended e p s =>
    rcases h : (sv.finish p).runOn s with ⟨c | c, t⟩
    · rw [hends none (by simp [call?, h, Except.toOption])]
      simpa [after, before, h] using (Services.finish_eq_error h).updates
    · rw [hends (some c) (call?_ended.mpr (by rw [h]))]
      rcases Services.finish_cases h with ⟨e, u, hr, -, rfl⟩ | ⟨code, data, u, hr, -, rfl⟩
      · have hs := (Services.sends_of_receive hr).updates
        simp [after, before, h, Services.reported, hs]
      · have hs := (Services.sends_of_receive hr).updates
        simp [after, before, h, Services.reported, hs]

/-- The log is written by none of them. -/
theorem after_entries (sv : Services) (x : Moment) : (x.after sv).entries = x.before.entries := by
  cases x with
  | begun e =>
    rcases h : (e.begun sv).1 with c | (c | p)
    · exact (Services.begin_eq_error (Event.begin_eq h)).entries
    · obtain ⟨data, -, -, ht⟩ := Services.begin_eq_done (Event.begin_eq h)
      rw [after, ht]
      rfl
    · obtain ⟨-, o, -, hs, -⟩ := Services.begin_eq_waiting (Event.begin_eq h)
      exact hs.entries
  | ended e p s =>
    rcases h : (sv.finish p).runOn s with ⟨c | c, t⟩
    · simpa [after, h, before] using (Services.finish_eq_error h).entries
    · obtain ⟨-, -, -, -, hentries, -⟩ := Services.finish_accounts h
      simpa [after, h, before] using hentries

end Moment

namespace Services

/-- From `s` to `t` this happens, each moment to the router that the one before it left. -/
inductive Passes (sv : Services) : Router → List Moment → Router → Prop
  | nil (s : Router) : Passes sv s [] s
  | cons (x : Moment) {h : List Moment} {t : Router} (tail : Passes sv (x.after sv) h t) :
    Passes sv x.before (x :: h) t

namespace Passes
variable {sv : Services} {s t u : Router} {g h : List Moment}

theorem append (hg : sv.Passes s g t) (hh : sv.Passes t h u) : sv.Passes s (g ++ h) u := by
  induction hg with
  | nil => exact hh
  | cons x _ ih => exact cons x (ih hh)

theorem sent (hp : sv.Passes s h t) :
    ∃ os, t.sent = s.sent ++ os ∧
      List.Forall₂ (fun e o => e.Asks sv o) ((Moment.begins h).filter (·.waits sv)) os := by
  induction hp with
  | nil => exact ⟨[], by simp, .nil⟩
  | @cons x h t _ ih =>
    obtain ⟨os, hos, hasks⟩ := x.after_sent sv
    obtain ⟨ps, hps, hrest⟩ := ih
    refine ⟨os ++ ps, by rw [hps, hos, List.append_assoc], ?_⟩
    have hsplit : Moment.begins (x :: h) = Moment.begins [x] ++ Moment.begins h :=
      List.filterMap_append (l := [x])
    rw [hsplit, List.filter_append]
    exact List.rel_append hasks hrest

theorem updates (hp : sv.Passes s h t) :
    ∃ us, t.updates.offered = s.updates.offered ++ us ∧
      List.Forall₂ (fun p u => Telemetry.Update.IsOf u p.2) (Moment.ends sv h) us ∧
      ((∀ j u, sv.metrics j u = .accepted) →
        t.updates.accepted = s.updates.accepted ++ us) := by
  induction hp with
  | nil => exact ⟨[], by simp, .nil, fun _ => by simp⟩
  | @cons x h t _ ih =>
    obtain ⟨us, hus, hof, haccepted⟩ := ih
    have hsplit : Moment.ends sv (x :: h) = Moment.ends sv [x] ++ Moment.ends sv h :=
      List.filterMap_append (l := [x])
    refine ⟨(Moment.ends sv [x]).map (·.2.update) ++ us, ?_, ?_, fun hm => ?_⟩
    · rw [hus, x.after_updates sv]
      simp [Telemetry.Journal.offered, Function.comp_def]
    · rw [hsplit]
      refine List.rel_append (List.forall₂_map_right_iff.mpr ?_) hof
      exact List.forall₂_same.mpr fun p _ => p.2.isOf_update
    · rw [haccepted hm, x.after_updates sv]
      simp [Telemetry.Journal.accepted, hm, List.filter_map, Function.comp_def]

theorem entries (hp : sv.Passes s h t) : t.entries = s.entries := by
  induction hp with
  | nil => rfl
  | cons x _ ih => exact ih.trans (x.after_entries sv)

end Passes
end Services
end Switchboard
