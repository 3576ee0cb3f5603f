import Switchboard.Execution.Strategy
import Switchboard.Proofs.Effect
import Switchboard.Proofs.Execution.Plan

/-! What holds of every begin and of every end of a call holds of the trail of a route, in whatever
order a strategy calls its mappings and in whatever turns calls that wait are ended. -/
namespace Switchboard
open Effect

/-- The call that waits. -/
def Progress.waiting? {φ : Type} : Progress φ → Option φ
  | done _ => none
  | waiting f => some f

theorem Progress.waiting?_eq_some {φ : Type} {x : Progress φ} {f : φ} :
    x.waiting? = some f ↔ x = .waiting f := by
  cases x <;> simp [waiting?]

namespace Caller
variable {σ φ : Type} {k : Caller σ φ} {n : Nat} {xs : List (Progress φ)}

theorem turn_le_lastTurn {f : φ} (h : .waiting f ∈ xs) : k.turn f ≤ k.lastTurn xs := by
  induction xs with
  | nil => cases h
  | cons x xs ih =>
    rcases List.mem_cons.mp h with rfl | hrest
    · exact Nat.le_max_left _ _
    · cases x with
      | done c => exact ih hrest
      | waiting g => exact Nat.le_trans (ih hrest) (Nat.le_max_right _ _)

/-- A call that still waits after a turn waits for a later one, and did before. -/
theorem waiting_of_advance {x : Progress φ} {f : φ} {s t : σ}
    (h : (k.advance n x).runOn s = (.ok (.waiting f), t)) : x = .waiting f ∧ n < k.turn f := by
  cases x with
  | done c => cases h
  | waiting g =>
    unfold advance at h
    by_cases hg : k.turn g ≤ n
    · simp only [if_pos hg] at h
      obtain ⟨c, u, -, h⟩ := runOn_bind_eq_ok h
      cases h
    · simp only [if_neg hg] at h
      cases h
      exact ⟨rfl, by omega⟩

theorem waiting_of_round {ys : List (Progress φ)} {f : φ} {s t : σ}
    (h : (Effect.each (k.advance n) xs).runOn s = (.ok ys, t)) (hf : .waiting f ∈ ys) :
    .waiting f ∈ xs ∧ n < k.turn f := by
  induction xs generalizing ys s with
  | nil =>
    cases h
    cases hf
  | cons x xs ih =>
    obtain ⟨y, u, hy, h⟩ := runOn_bind_eq_ok h
    obtain ⟨zs, v, hzs, h⟩ := runOn_bind_eq_ok h
    cases h
    rcases List.mem_cons.mp hf with rfl | hf
    · obtain ⟨rfl, hlt⟩ := waiting_of_advance hy
      exact ⟨List.mem_cons_self, hlt⟩
    · obtain ⟨hmem, hlt⟩ := ih hzs hf
      exact ⟨List.mem_cons_of_mem _ hmem, hlt⟩

/-- What still waits after some turns waits for a later one. -/
theorem waiting_of_settle (hxs : ∀ f, .waiting f ∈ xs → 0 < k.turn f) {ys : List (Progress φ)}
    {f : φ} {s t : σ} (h : (k.settle n xs).runOn s = (.ok ys, t)) (hf : .waiting f ∈ ys) :
    .waiting f ∈ xs ∧ n < k.turn f := by
  induction n generalizing ys t with
  | zero =>
    cases h
    exact ⟨hf, hxs f hf⟩
  | succ n ih =>
    obtain ⟨zs, u, hzs, h⟩ := runOn_bind_eq_ok h
    obtain ⟨hmem, hlt⟩ := waiting_of_round h hf
    exact ⟨(ih hzs hmem).1, hlt⟩

/-- After the last turn all calls are done. -/
theorem not_waiting_of_settle (hxs : ∀ f, .waiting f ∈ xs → 0 < k.turn f)
    (hn : k.lastTurn xs ≤ n) {ys : List (Progress φ)} {s t : σ}
    (h : (k.settle n xs).runOn s = (.ok ys, t)) (f : φ) : .waiting f ∉ ys := by
  intro hf
  obtain ⟨hmem, hlt⟩ := waiting_of_settle hxs h hf
  have hle := turn_le_lastTurn (k := k) hmem
  omega

theorem advance_of_not_waiting {x : Progress φ} (h : ∀ f, x ≠ .waiting f) :
    k.advance n x = pure x := by
  cases x with
  | done c => rfl
  | waiting f => exact absurd rfl (h f)

/-- Nothing happens in turns after the last one. -/
theorem settle_eq_of_le (hxs : ∀ f, .waiting f ∈ xs → 0 < k.turn f) (hn : k.lastTurn xs ≤ n) :
    k.settle n xs = k.settle (k.lastTurn xs) xs := by
  induction hn with
  | refl => rfl
  | @step n hn ih =>
    rw [← ih]
    refine bind_eq_self fun s ys t h => each_eq_pure fun y hy => ?_
    exact advance_of_not_waiting fun f hf => not_waiting_of_settle hxs hn h f (hf ▸ hy)

end Caller

/-- `I` holds, and `W` of each of the calls that wait. -/
def Awaiting {σ φ : Type} (I : σ → Prop) (W : φ → σ → Prop) (fs : List φ) (s : σ) : Prop :=
  I s ∧ ∀ f ∈ fs, W f s

/-- What holds beside calls that wait still holds when one of the mappings has been called, and the
new call is one of them or done; and it still holds when one of them has been ended. A crash leaves
what `E` tells. -/
structure Caller.Keeps {σ φ : Type} (k : Caller σ φ) (ms : List Mapping) (I : σ → Prop)
    (W : φ → σ → Prop) (E : σ → Prop) : Prop where
  begin : ∀ m ∈ ms, ∀ body fs, Leads (Awaiting I W fs) (k.begin m body)
    (fun x => Awaiting I W (x.waiting?.toList ++ fs)) E
  finish : ∀ fs, ∀ f ∈ fs, Leads (Awaiting I W fs) (k.finish f) (fun _ => Awaiting I W fs) E

namespace Caller.Keeps
variable {σ φ : Type} {k : Caller σ φ} {ms ns : List Mapping} {I E : σ → Prop} {W : φ → σ → Prop}

theorem subset (h : k.Keeps ms I W E) (hns : ∀ m ∈ ns, m ∈ ms) : k.Keeps ns I W E :=
  ⟨fun m hm => h.begin m (hns m hm), h.finish⟩

theorem tail {m : Mapping} (h : k.Keeps (m :: ms) I W E) : k.Keeps ms I W E :=
  h.subset fun _ hm => List.mem_cons_of_mem _ hm

theorem call (h : k.Keeps ms I W E) {m : Mapping} (hm : m ∈ ms) (body : Option Json) :
    Leads I (k.call m body) (fun _ => I) E := by
  have hbegin := (h.begin m hm body []).imp (fun s hs => (⟨hs, by simp⟩ : Awaiting I W [] s))
    fun x s hx => hx
  refine hbegin.bind fun x => ?_
  cases x with
  | done c => exact .pure fun s hs => hs.1
  | waiting f =>
    exact (h.finish [f] f (List.mem_singleton_self f)).imp (fun s hs => hs) fun c s hs => hs.1

theorem callUntilSuccess (h : k.Keeps ms I W E) (body : Option Json) :
    Leads I (Strategy.callUntilSuccess (k.call · body) ms) (fun _ => I) E := by
  induction ms with
  | nil => exact .pure fun s hs => hs
  | cons m ms ih =>
    refine (h.call List.mem_cons_self body).bind fun c => ?_
    by_cases hc : c.succeeded = true
    · rw [if_pos hc]
      exact .pure fun s hs => hs
    · rw [if_neg hc]
      exact (ih h.tail).bind fun cs => .pure fun s hs => hs

theorem callChain (h : k.Keeps ms I W E) (body : Option Json) :
    Leads I (Strategy.callChain k.call body ms) (fun _ => I) E := by
  induction ms generalizing body with
  | nil => exact .pure fun s hs => hs
  | cons m ms ih =>
    refine (h.call List.mem_cons_self body).bind fun c => ?_
    by_cases hc : c.succeeded = true
    · rw [if_pos hc]
      exact (ih h.tail _).bind fun cs => .pure fun s hs => hs
    · rw [if_neg hc]
      exact .pure fun s hs => hs

theorem advance (h : k.Keeps ms I W E) {fs : List φ} {x : Progress φ}
    (hx : ∀ f, x = .waiting f → f ∈ fs) (n : Nat) :
    Leads (Awaiting I W fs) (k.advance n x)
      (fun y s => Awaiting I W fs s ∧ ∀ f, y = .waiting f → f ∈ fs) E := by
  cases x with
  | done c => exact .pure fun s hs => ⟨hs, nofun⟩
  | waiting f =>
    unfold Caller.advance
    by_cases hf : k.turn f ≤ n
    · simp only [if_pos hf]
      exact (h.finish fs f (hx f rfl)).bind fun c => .pure fun s hs => ⟨hs, nofun⟩
    · simp only [if_neg hf]
      exact .pure fun s hs => ⟨hs, hx⟩

/-- The calls that wait when all are begun stand beside those that waited before. -/
theorem beginAll (h : k.Keeps ms I W E) (body : Option Json) (fs : List φ) :
    Leads (Awaiting I W fs) (k.beginAll body ms)
      (fun xs s => ∃ gs, Awaiting I W (gs ++ fs) s ∧ ∀ f, .waiting f ∈ xs → f ∈ gs ++ fs) E := by
  induction ms generalizing fs with
  | nil => exact .pure fun s hs => ⟨[], hs, nofun⟩
  | cons m ms ih =>
    have hfirst : Leads (Awaiting I W fs) (k.begin m body >>= k.advance 0)
        (fun y s => ∃ gs, Awaiting I W (gs ++ fs) s ∧ ∀ f, y = .waiting f → f ∈ gs ++ fs) E := by
      refine (h.begin m List.mem_cons_self body fs).bind fun x => ?_
      have hx : ∀ f, x = .waiting f → f ∈ x.waiting?.toList ++ fs := by
        rintro f rfl
        exact List.mem_append_left _ (List.mem_singleton_self f)
      exact (h.advance hx 0).imp (fun s hs => hs) fun y s hs => ⟨_, hs.1, hs.2⟩
    refine hfirst.bind fun y s ⟨gs, hs, hy⟩ => ?_
    refine ((ih h.tail (gs ++ fs)).bind fun ys => .pure ?_) s hs
    rintro t ⟨gs', ht, hys⟩
    refine ⟨gs' ++ gs, by rwa [List.append_assoc], fun f hf => ?_⟩
    rw [List.append_assoc]
    rcases List.mem_cons.mp hf with hf | hf
    · exact List.mem_append_right _ (hy f hf.symm)
    · exact hys f hf

theorem settle (h : k.Keeps ms I W E) {fs : List φ} {xs : List (Progress φ)}
    (hxs : ∀ f, .waiting f ∈ xs → f ∈ fs) (n : Nat) :
    Leads (Awaiting I W fs) (k.settle n xs)
      (fun ys s => Awaiting I W fs s ∧ ∀ f, .waiting f ∈ ys → f ∈ fs) E := by
  induction n with
  | zero => exact .pure fun s hs => ⟨hs, hxs⟩
  | succ n ih =>
    refine ih.bind fun ys s ⟨hs, hys⟩ => ?_
    have hadvance := fun y (hy : y ∈ ys) => h.advance (fun f hf => hys f (hf ▸ hy)) (n + 1)
    have hround := Leads.each hadvance
    exact hround.imp (fun t ht => ht) (fun zs t ht => ⟨ht.1, fun f hf => ht.2 _ hf f rfl⟩) s hs

theorem callAll (h : k.Keeps ms I W E) (body : Option Json) :
    Leads I (Strategy.callAll k body ms) (fun _ => I) E := by
  intro s hs
  refine ((h.beginAll body []).bind fun xs t ⟨gs, ht, hxs⟩ => ?_) s
    (⟨hs, by simp⟩ : Awaiting I W [] s)
  exact ((h.settle hxs _).bind fun ys => .pure fun u hu => hu.1.1) t ht

/-- A strategy calls none but the mappings of its route. -/
theorem trail {route : Route} (h : k.Keeps route.mappings I W E) (body : Option Json) :
    Leads I (Strategy.trail k route body) (fun _ => I) E := by
  have hplan : k.Keeps (priorityPlan route.mappings) I W E :=
    h.subset fun m => (isPriorityPlan_priorityPlan _).perm.mem_iff.mp
  unfold Strategy.trail
  cases route.strategy with
  | firstSuccess => exact h.callUntilSuccess body
  | priorityOrder => exact hplan.callUntilSuccess body
  | mergeResults => exact h.callAll body
  | allParallel => exact h.callAll body
  | chain => exact h.callChain body

/-- What every begin and every end of a call preserves. -/
theorem of_preserves (hbegin : ∀ m ∈ ms, ∀ body, Preserves I (k.begin m body))
    (hfinish : ∀ f, Preserves I (k.finish f)) : k.Keeps ms I (fun _ _ => True) I where
  begin := fun m hm body _ => (hbegin m hm body).leads.imp (fun _ hs => hs.1)
    fun _ _ hs => ⟨hs, fun _ _ => trivial⟩
  finish := fun _ f _ => (hfinish f).leads.imp (fun _ hs => hs.1)
    fun _ _ hs => ⟨hs, fun _ _ => trivial⟩

end Caller.Keeps
end Switchboard
