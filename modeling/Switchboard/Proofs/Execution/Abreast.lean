import Switchboard.Proofs.Execution.Trail

/-! Trails of two callers whose calls go along with each other. Calls that wait are ended in the same
turns on both sides; where one side has nothing to wait for, the other may still wait. -/
namespace Switchboard
open Effect
variable {σ τ φ ψ : Type} {k : Caller σ φ} {k' : Caller τ ψ} {C : σ → Prop} {R : σ → τ → Prop}
  {S : Call → Call → Prop} {F : φ → ψ → Prop} {G : Call → ψ → Prop} {P : Nat → Prop} {n : Nat}
  {xs : List (Progress φ)} {ys : List (Progress ψ)}

/-- Two calls that have come as far as each other, or of which the first one has come further. What
waits does so for a turn of which `P` holds. -/
inductive Caller.Abreast (k' : Caller τ ψ) (S : Call → Call → Prop) (F : φ → ψ → Prop)
    (G : Call → ψ → Prop) (P : Nat → Prop) : Progress φ → Progress ψ → Prop
  | done {c d : Call} (h : S c d) : Abreast k' S F G P (.done c) (.done d)
  | waiting {f : φ} {g : ψ} (h : F f g) (ht : P (k'.turn g)) :
    Abreast k' S F G P (.waiting f) (.waiting g)
  | ahead {c : Call} {g : ψ} (h : G c g) (ht : P (k'.turn g)) :
    Abreast k' S F G P (.done c) (.waiting g)

/-- Calls go along with each other, at their begin and at their end, where both wait for the same
turn. One that is done may go along with one that is sure to end as it did. -/
structure Caller.GoesAlong (k : Caller σ φ) (k' : Caller τ ψ) (C : σ → Prop) (R : σ → τ → Prop)
    (S : Call → Call → Prop) (F : φ → ψ → Prop) (G : Call → ψ → Prop) : Prop where
  agree : ∀ c d, S c d → c.succeeded = d.succeeded ∧ c.data = d.data
  turn : ∀ f g, F f g → k.turn f = k'.turn g
  begin : ∀ m body, Simulates C R (k'.Abreast S F G fun _ => True) (k.begin m body)
    (k'.begin m body)
  finish : ∀ f g, F f g → Simulates C R S (k.finish f) (k'.finish g)
  ahead : ∀ c g, G c g → Simulates C R S (pure c) (k'.finish g)
  begin_spoils : ∀ m body, Preserves (fun s => ¬ C s) (k.begin m body)
  finish_spoils : ∀ f, Preserves (fun s => ¬ C s) (k.finish f)

namespace Caller
open Strategy

theorem Abreast.imp {P' : Nat → Prop} (hP : ∀ t, P t → P' t) {x : Progress φ} {y : Progress ψ}
    (h : k'.Abreast S F G P x y) : k'.Abreast S F G P' x y := by
  cases h with
  | done h => exact .done h
  | waiting h ht => exact .waiting h (hP _ ht)
  | ahead h ht => exact .ahead h (hP _ ht)

/-- Where nothing can wait, all calls are done. -/
theorem abreast_calls (h : List.Forall₂ (k'.Abreast S F G P) xs ys) (hP : ∀ t, ¬ P t) :
    List.Forall₂ S (xs.filterMap Progress.call?) (ys.filterMap Progress.call?) := by
  induction h with
  | nil => exact .nil
  | cons hxy _ ih =>
    cases hxy with
    | done hS => exact .cons hS ih
    | waiting _ ht => exact absurd ht (hP _)
    | ahead _ ht => exact absurd ht (hP _)

theorem abreast_le_lastTurn (h : List.Forall₂ (k'.Abreast S F G P) xs ys)
    (hn : k'.lastTurn ys ≤ n) :
    List.Forall₂ (k'.Abreast S F G fun t => P t ∧ t ≤ n) xs ys := by
  induction h with
  | nil => exact .nil
  | @cons x y xs ys hxy hrest ih =>
    cases hxy with
    | done hS => exact .cons (.done hS) (ih hn)
    | waiting hF ht =>
      obtain ⟨hg, hys⟩ := Nat.max_le.mp hn
      exact .cons (.waiting hF ⟨ht, hg⟩) (ih hys)
    | ahead hG ht =>
      obtain ⟨hg, hys⟩ := Nat.max_le.mp hn
      exact .cons (.ahead hG ⟨ht, hg⟩) (ih hys)

theorem abreast_right (h : List.Forall₂ (k'.Abreast S F G P) xs ys) (g : ψ)
    (hg : .waiting g ∈ ys) : P (k'.turn g) := by
  induction h with
  | nil => cases hg
  | cons hxy _ ih =>
    rcases List.mem_cons.mp hg with rfl | hg
    · cases hxy with
      | waiting _ ht => exact ht
      | ahead _ ht => exact ht
    · exact ih hg

namespace GoesAlong
variable (h : k.GoesAlong k' C R S F G)
include h

theorem abreast_left (hxy : List.Forall₂ (k'.Abreast S F G P) xs ys) (f : φ)
    (hf : .waiting f ∈ xs) : P (k.turn f) := by
  induction hxy with
  | nil => cases hf
  | cons hxy _ ih =>
    rcases List.mem_cons.mp hf with rfl | hf
    · cases hxy with
      | waiting hF ht => exact h.turn _ _ hF ▸ ht
    · exact ih hf

theorem keeps (ms : List Mapping) :
    k.Keeps ms (fun s => ¬ C s) (fun _ _ => True) fun s => ¬ C s :=
  .of_preserves (fun m _ => h.begin_spoils m) h.finish_spoils

theorem advance_spoils (n : Nat) (x : Progress φ) :
    Preserves (fun s => ¬ C s) (k.advance n x) := by
  unfold advance
  cases x with
  | done c => exact .pure _
  | waiting f =>
    by_cases hf : k.turn f ≤ n
    · simp only [if_pos hf]
      exact (h.finish_spoils f).bind fun c => .pure _
    · simp only [if_neg hf]
      exact .pure _

theorem call (m : Mapping) (body : Option Json) :
    Simulates C R S (k.call m body) (k'.call m body) := by
  refine (h.begin m body).bind (fun x y hxy => ?_) fun x => ?_
  · cases hxy with
    | done hS => exact .pure hS
    | waiting hF _ => exact h.finish _ _ hF
    | ahead hG _ => exact h.ahead _ _ hG
  · cases x with
    | done c => exact .pure _
    | waiting f => exact h.finish_spoils f

theorem callUntilSuccess (body : Option Json) (ms : List Mapping) :
    Simulates C R (List.Forall₂ S) (callUntilSuccess (k.call · body) ms)
      (callUntilSuccess (k'.call · body) ms) := by
  induction ms with
  | nil => exact .pure .nil
  | cons m ms ih =>
    refine (h.call m body).bind (fun c d hcd => ?_) (fun c => ?_)
    · obtain ⟨hsucceeded, -⟩ := h.agree c d hcd
      by_cases hs : c.succeeded = true
      · rw [if_pos hs, if_pos (hsucceeded ▸ hs)]
        exact .pure (.cons hcd .nil)
      · rw [if_neg hs, if_neg (hsucceeded ▸ hs)]
        exact ih.bind (fun cs ds hcds => .pure (.cons hcd hcds)) fun cs => .pure _
    · by_cases hs : c.succeeded = true
      · rw [if_pos hs]
        exact .pure _
      · rw [if_neg hs]
        exact ((h.keeps ms).callUntilSuccess body).preserves.bind fun cs => .pure _

theorem callChain (ms : List Mapping) (body : Option Json) :
    Simulates C R (List.Forall₂ S) (callChain k.call body ms) (callChain k'.call body ms) := by
  induction ms generalizing body with
  | nil => exact .pure .nil
  | cons m ms ih =>
    refine (h.call m body).bind (fun c d hcd => ?_) (fun c => ?_)
    · obtain ⟨hsucceeded, hdata⟩ := h.agree c d hcd
      by_cases hs : c.succeeded = true
      · rw [if_pos hs, if_pos (hsucceeded ▸ hs), ← hdata]
        exact (ih _).bind (fun cs ds hcds => .pure (.cons hcd hcds)) fun cs => .pure _
      · rw [if_neg hs, if_neg (hsucceeded ▸ hs)]
        exact .pure (.cons hcd .nil)
    · by_cases hs : c.succeeded = true
      · rw [if_pos hs]
        exact ((h.keeps ms).callChain _).preserves.bind fun cs => .pure _
      · rw [if_neg hs]
        exact .pure _

/-- A turn passes for two calls: what waits after it waits for a later one. -/
theorem advance {x : Progress φ} {y : Progress ψ} (hxy : k'.Abreast S F G P x y) (n : Nat) :
    Simulates C R (k'.Abreast S F G fun t => P t ∧ n < t) (k.advance n x) (k'.advance n y) := by
  unfold Caller.advance
  cases hxy with
  | done hS => exact .pure (.done hS)
  | @waiting f g hF ht =>
    by_cases hg : k'.turn g ≤ n
    · simp only [h.turn f g hF, if_pos hg]
      exact (h.finish f g hF).bind (fun c d hS => .pure (.done hS)) fun c => .pure _
    · simp only [h.turn f g hF, if_neg hg]
      exact .pure (.waiting hF ⟨ht, by omega⟩)
  | @ahead c g hG ht =>
    by_cases hg : k'.turn g ≤ n
    · simp only [if_pos hg]
      have hend : Simulates C R (k'.Abreast S F G fun t => P t ∧ n < t)
          (pure c >>= fun c => pure (.done c)) (k'.finish g >>= fun d => pure (.done d)) :=
        (h.ahead c g hG).bind (fun c d hS => .pure (.done hS)) fun c => .pure _
      rwa [pure_bind] at hend
    · simp only [if_neg hg]
      exact .pure (.ahead hG ⟨ht, by omega⟩)

theorem beginAll (body : Option Json) (ms : List Mapping) :
    Simulates C R (List.Forall₂ (k'.Abreast S F G fun t => 0 < t)) (k.beginAll body ms)
      (k'.beginAll body ms) := by
  refine Simulates.each (T := Eq) ?_ ?_ (List.forall₂_eq_eq_eq ▸ rfl)
  · rintro m _ rfl
    refine (h.begin m body).bind (fun x y hxy => ?_) fun x => h.advance_spoils 0 x
    exact (h.advance hxy 0).imp fun x y hxy => hxy.imp fun t ht => ht.2
  · exact fun m => (h.begin_spoils m body).bind fun x => h.advance_spoils 0 x

theorem settle {last : Nat}
    (hxy : List.Forall₂ (k'.Abreast S F G fun t => 0 < t ∧ t ≤ last) xs ys) (n : Nat) :
    Simulates C R (List.Forall₂ (k'.Abreast S F G fun t => n < t ∧ t ≤ last)) (k.settle n xs)
      (k'.settle n ys) := by
  induction n with
  | zero => exact .pure hxy
  | succ n ih =>
    refine ih.bind (fun xs ys hxy => ?_) fun xs => .each fun x _ => h.advance_spoils (n + 1) x
    refine Simulates.each (fun x y hxy => ?_) (h.advance_spoils (n + 1)) hxy
    exact (h.advance hxy (n + 1)).imp fun x y hxy => hxy.imp fun t ht => ⟨ht.2, ht.1.2⟩

/-- What is begun together goes along through as many turns as either side needs. -/
theorem callAll (body : Option Json) (ms : List Mapping) :
    Simulates C R (List.Forall₂ S) (callAll k body ms) (callAll k' body ms) := by
  refine (h.beginAll body ms).bind (fun xs ys hxy => ?_) fun xs => ?_
  · rw [← settle_eq_of_le (h.abreast_left hxy) (Nat.le_max_left _ (k'.lastTurn ys)),
      ← settle_eq_of_le (abreast_right hxy) (Nat.le_max_right (k.lastTurn xs) _)]
    have hle := abreast_le_lastTurn hxy (Nat.le_max_right (k.lastTurn xs) _)
    refine (h.settle hle _).bind (fun xs ys hxy => ?_) fun xs => .pure _
    exact .pure (abreast_calls hxy fun t ht => by omega)
  · have hwaiting : ∀ f, .waiting f ∈ xs → f ∈ xs.filterMap Progress.waiting? :=
      fun f hf => List.mem_filterMap.mpr ⟨_, hf, rfl⟩
    have hsettle := (h.keeps ms).settle hwaiting (k.lastTurn xs)
    exact (hsettle.imp (fun s hs => ⟨hs, fun _ _ => trivial⟩) fun ys s hs => hs.1.1).preserves.bind
      fun ys => .pure _

/-- Calls that go along with each other give trails that do, if they agree in what a strategy looks
at: success and data. -/
theorem trail (route : Route) (body : Option Json) :
    Simulates C R (List.Forall₂ S) (trail k route body) (trail k' route body) := by
  unfold Strategy.trail
  cases route.strategy with
  | firstSuccess => exact h.callUntilSuccess body _
  | priorityOrder => exact h.callUntilSuccess body _
  | mergeResults => exact h.callAll body _
  | allParallel => exact h.callAll body _
  | chain => exact h.callChain _ body

end GoesAlong
end Caller
end Switchboard
