import Mathlib.Data.List.Forall2
import Switchboard.Crash

/-! What holds of every step of an execution holds of the whole, whether it comes to its end or
crashes on the way: for one execution, for one whose outcome is known, and for two that go along
with each other, as one that writes things down goes along with one that does not. Where no step
crashes, the whole does not. -/
namespace Switchboard.Effect
variable {σ τ α β α' β' : Type}

/-- What comes to its end has gone through both its parts. -/
theorem runOn_bind_eq_ok {x : Effect σ α} {f : α → Effect σ β} {s u : σ} {b : β}
    (h : (x >>= f).runOn s = (.ok b, u)) :
    ∃ a t, x.runOn s = (.ok a, t) ∧ (f a).runOn t = (.ok b, u) := by
  rcases runOn_bind_cases x f s with ⟨c, t, -, heq⟩ | ⟨a, t, hx, heq⟩
  · rw [heq] at h
    cases h
  · exact ⟨a, t, hx, heq.symm.trans h⟩

/-- Steps are told apart by what they do. -/
theorem ext {x y : Effect σ α} (h : ∀ s, x.runOn s = y.runOn s) : x = y := funext h

/-- What is made of every result that a step may have can be left out if it does nothing. -/
theorem bind_eq_self {x : Effect σ α} {f : α → Effect σ α}
    (h : ∀ s a t, x.runOn s = (.ok a, t) → f a = pure a) : (x >>= f) = x := by
  refine ext fun s => ?_
  rcases runOn_bind_cases x f s with ⟨c, t, hx, heq⟩ | ⟨a, t, hx, heq⟩
  · rw [heq, hx]
  · rw [heq, hx, h s a t hx, runOn_pure]

theorem each_map {α' : Type} (f : α → Effect σ β) (g : α' → α) (as : List α') :
    each f (as.map g) = each (fun a => f (g a)) as := by
  induction as with
  | nil => rfl
  | cons a as ih => simp only [List.map_cons, each, ih]

theorem each_eq_pure {f : α → Effect σ α} {as : List α} (h : ∀ a ∈ as, f a = pure a) :
    each f as = pure as := by
  induction as with
  | nil => rfl
  | cons a as ih =>
    obtain ⟨ha, has⟩ := List.forall_mem_cons.mp h
    simp only [each, ha, ih has, pure_bind]

/-- A step after which `I` holds where it held before. -/
def Preserves (I : σ → Prop) (x : Effect σ α) : Prop := ∀ s, I s → I (x.runOn s).2

theorem Preserves.pure {I : σ → Prop} (a : α) : Preserves I (Pure.pure a : Effect σ α) :=
  fun _ h => h

/-- What the first step brings about stays if the second one keeps it. -/
theorem runOn_bind_of_preserves {I : σ → Prop} {x : Effect σ α} {f : α → Effect σ β} {s : σ}
    (hx : I (x.runOn s).2) (hf : ∀ a, Preserves I (f a)) : I ((x >>= f).runOn s).2 := by
  rcases runOn_bind_cases x f s with ⟨c, t, hxt, heq⟩ | ⟨a, t, hxt, heq⟩
  · rw [heq]
    rwa [hxt] at hx
  · rw [heq]
    rw [hxt] at hx
    exact hf a t hx

theorem Preserves.bind {I : σ → Prop} {x : Effect σ α} {f : α → Effect σ β} (hx : Preserves I x)
    (hf : ∀ a, Preserves I (f a)) : Preserves I (x >>= f) :=
  fun s hs => runOn_bind_of_preserves (hx s hs) hf

theorem Preserves.each {I : σ → Prop} {f : α → Effect σ β} {as : List α}
    (h : ∀ a ∈ as, Preserves I (f a)) : Preserves I (Effect.each f as) := by
  induction as with
  | nil => exact .pure _
  | cons a as ih =>
    obtain ⟨ha, has⟩ := List.forall_mem_cons.mp h
    exact ha.bind fun b => (ih has).bind fun bs => .pure _

/-- A step that never crashes. -/
def Finishes (x : Effect σ α) : Prop := ∀ s, ∃ a t, x.runOn s = (.ok a, t)

theorem Finishes.pure (a : α) : Finishes (Pure.pure a : Effect σ α) := fun s => ⟨a, s, rfl⟩

theorem Finishes.bind {x : Effect σ α} {f : α → Effect σ β} (hx : Finishes x)
    (hf : ∀ a, Finishes (f a)) : Finishes (x >>= f) := by
  intro s
  obtain ⟨a, t, ha⟩ := hx s
  obtain ⟨b, u, hb⟩ := hf a t
  exact ⟨b, u, by rw [runOn_bind, ha]; exact hb⟩

theorem Finishes.within {get : σ → τ} {set : τ → σ → σ} {x : Effect τ α} (hx : Finishes x) :
    Finishes (Effect.within get set x) := by
  intro s
  obtain ⟨a, t, ha⟩ := hx (get s)
  exact ⟨a, set t s, by rw [runOn_within, ha]⟩

theorem Finishes.bestEffort (x : Effect σ Unit) : Finishes (Effect.bestEffort x) :=
  fun s => ⟨(), (x.runOn s).2, rfl⟩

/-- A step that comes from a state of `P` to its end where `Q` holds of the result and the state, or
crashes where `E` holds of the state. -/
def Leads (P : σ → Prop) (x : Effect σ α) (Q : α → σ → Prop) (E : σ → Prop) : Prop :=
  ∀ s, P s → (∃ a t, x.runOn s = (.ok a, t) ∧ Q a t) ∨ ∃ c t, x.runOn s = (.error c, t) ∧ E t

namespace Leads
variable {P P' E : σ → Prop} {Q Q' : α → σ → Prop} {R : β → σ → Prop} {x : Effect σ α}

theorem pure {a : α} (h : ∀ s, P s → Q a s) : Leads P (Pure.pure a) Q E :=
  fun s hs => .inl ⟨a, s, rfl, h s hs⟩

theorem bind {f : α → Effect σ β} (hx : Leads P x Q E) (hf : ∀ a, Leads (Q a) (f a) R E) :
    Leads P (x >>= f) R E := by
  intro s hs
  rcases hx s hs with ⟨a, t, hxs, hQ⟩ | ⟨c, t, hxs, hE⟩
  · have heq : (x >>= f).runOn s = (f a).runOn t := by rw [runOn_bind, hxs]
    rw [heq]
    exact hf a t hQ
  · exact .inr ⟨c, t, by rw [runOn_bind, hxs], hE⟩

theorem imp (h : Leads P x Q E) (hP : ∀ s, P' s → P s) (hQ : ∀ a s, Q a s → Q' a s) :
    Leads P' x Q' E := by
  intro s hs
  rcases h s (hP s hs) with ⟨a, t, hxs, hq⟩ | ⟨c, t, hxs, hE⟩
  · exact .inl ⟨a, t, hxs, hQ a t hq⟩
  · exact .inr ⟨c, t, hxs, hE⟩

theorem preserves {I : σ → Prop} (h : Leads I x (fun _ => I) I) : Preserves I x := by
  intro s hs
  rcases h s hs with ⟨a, t, hxs, ht⟩ | ⟨c, t, hxs, ht⟩
  · rwa [hxs]
  · rwa [hxs]

theorem finishes (h : Leads (fun _ => True) x Q fun _ => False) : Finishes x := by
  intro s
  rcases h s trivial with ⟨a, t, hxs, -⟩ | ⟨c, t, -, ht⟩
  · exact ⟨a, t, hxs⟩
  · exact ht.elim

/-- What each step of a list keeps up, and what it makes sure of its own result. -/
theorem each {T : β → Prop} {f : α → Effect σ β} {as : List α}
    (h : ∀ a ∈ as, Leads P (f a) (fun b s => P s ∧ T b) E) :
    Leads P (Effect.each f as) (fun bs s => P s ∧ ∀ b ∈ bs, T b) E := by
  induction as with
  | nil => exact .pure fun s hs => ⟨hs, by simp⟩
  | cons a as ih =>
    obtain ⟨ha, has⟩ := List.forall_mem_cons.mp h
    refine ha.bind fun b s hs => ?_
    have hrest := (ih has).bind fun bs => pure (E := E) (a := b :: bs)
      (Q := fun bs s => P s ∧ ∀ b ∈ bs, T b) fun t ht =>
        ⟨ht.1, List.forall_mem_cons.mpr ⟨hs.2, ht.2⟩⟩
    exact hrest s hs.1

end Leads

theorem Preserves.leads {I : σ → Prop} {x : Effect σ α} (h : Preserves I x) :
    Leads I x (fun _ => I) I := by
  intro s hs
  have ht := h s hs
  rcases hx : x.runOn s with ⟨c | a, t⟩
  · rw [hx] at ht
    exact .inr ⟨c, t, rfl, ht⟩
  · rw [hx] at ht
    exact .inl ⟨a, t, rfl, ht⟩

theorem Finishes.leads {x : Effect σ α} (h : Finishes x) :
    Leads (fun _ => True) x (fun _ _ => True) fun _ => False := by
  intro s _
  obtain ⟨a, t, hx⟩ := h s
  exact .inl ⟨a, t, hx, trivial⟩

/-- A step that has the outcome `y` from each state of `I`, and leaves a state of `I`. -/
def Gives (I : σ → Prop) (x : Effect σ α) (y : Except Crash α) : Prop :=
  ∀ s, I s → (x.runOn s).1 = y ∧ I (x.runOn s).2

theorem Gives.preserves {I : σ → Prop} {x : Effect σ α} {y : Except Crash α} (h : Gives I x y) :
    Preserves I x := fun s hs => (h s hs).2

theorem Gives.pure {I : σ → Prop} (a : α) : Gives I (Pure.pure a : Effect σ α) (.ok a) :=
  fun _ h => ⟨rfl, h⟩

theorem Gives.ofExcept {I : σ → Prop} (y : Except Crash α) : Gives I (Effect.ofExcept y) y :=
  fun _ h => ⟨rfl, h⟩

theorem Gives.bind {I : σ → Prop} {x : Effect σ α} {y : Except Crash α} {f : α → Effect σ β}
    {g : α → Except Crash β} (hx : Gives I x y) (hf : ∀ a, Gives I (f a) (g a)) :
    Gives I (x >>= f) (y >>= g) := by
  intro s hs
  obtain ⟨hxy, ht⟩ := hx s hs
  rcases runOn_bind_cases x f s with ⟨c, t, hxt, heq⟩ | ⟨a, t, hxt, heq⟩
  · rw [heq]
    rw [hxt] at hxy ht
    subst hxy
    exact ⟨rfl, ht⟩
  · rw [heq]
    rw [hxt] at hxy ht
    subst hxy
    exact hf a t ht

theorem Gives.bind_ok {I : σ → Prop} {x : Effect σ α} {a : α} {f : α → Effect σ β}
    {y : Except Crash β} (hx : Gives I x (.ok a)) (hf : Gives I (f a) y) : Gives I (x >>= f) y := by
  intro s hs
  obtain ⟨hxa, ht⟩ := hx s hs
  rcases runOn_bind_cases x f s with ⟨c, t, hxt, -⟩ | ⟨b, t, hxt, heq⟩
  · rw [hxt] at hxa
    cases hxa
  · rw [heq]
    rw [hxt] at hxa ht
    cases hxa
    exact hf t ht

/-- Where the result of a step is known, nothing is asked of what would follow any other. -/
theorem Gives.bind_preserves {I : σ → Prop} {x : Effect σ α} {a : α} {f : α → Effect σ β}
    (hx : Gives I x (.ok a)) (hf : Preserves I (f a)) : Preserves I (x >>= f) := by
  intro s hs
  obtain ⟨hxa, ht⟩ := hx s hs
  rcases runOn_bind_cases x f s with ⟨c, t, hxt, -⟩ | ⟨b, t, hxt, heq⟩
  · rw [hxt] at hxa
    cases hxa
  · rw [heq]
    rw [hxt] at hxa ht
    cases hxa
    exact hf t ht

/-- Both steps crash alike, or both have results that stand in `S`. -/
def Agree (S : α → β → Prop) : Except Crash α → Except Crash β → Prop
  | .ok a, .ok b => S a b
  | .error c, .error d => c = d
  | _, _ => False

theorem Agree.imp {S S' : α → β → Prop} {x : Except Crash α} {y : Except Crash β}
    (h : Agree S x y) (hS : ∀ a b, S a b → S' a b) : Agree S' x y := by
  cases x with
  | error c =>
    cases y with
    | error d => exact h
    | ok b => exact h
  | ok a =>
    cases y with
    | error d => exact h
    | ok b => exact hS a b h

theorem Agree.refl (x : Except Crash α) : Agree Eq x x := by cases x <;> rfl

theorem Agree.eq {x y : Except Crash α} (h : Agree Eq x y) : x = y := by
  cases x with
  | error c =>
    cases y with
    | error d => exact congrArg Except.error h
    | ok b => exact h.elim
  | ok a =>
    cases y with
    | error d => exact h.elim
    | ok b => exact congrArg Except.ok h

/-- From states in `R` both steps go to states in `R` and agree. That is asked only where the first
one ends in a state of `C`. -/
def Simulates (C : σ → Prop) (R : σ → τ → Prop) (S : α → β → Prop) (x : Effect σ α)
    (y : Effect τ β) : Prop :=
  ∀ s t, R s t → C (x.runOn s).2 →
    Agree S (x.runOn s).1 (y.runOn t).1 ∧ R (x.runOn s).2 (y.runOn t).2

theorem Simulates.pure {C : σ → Prop} {R : σ → τ → Prop} {S : α → β → Prop} {a : α} {b : β}
    (h : S a b) : Simulates C R S (Pure.pure a : Effect σ α) (Pure.pure b : Effect τ β) :=
  fun _ _ hR _ => ⟨h, hR⟩

theorem Simulates.imp {C : σ → Prop} {R : σ → τ → Prop} {S S' : α → β → Prop} {x : Effect σ α}
    {y : Effect τ β} (h : Simulates C R S x y) (hS : ∀ a b, S a b → S' a b) :
    Simulates C R S' x y := by
  intro s t hR hend
  obtain ⟨hagree, hR'⟩ := h s t hR hend
  exact ⟨hagree.imp hS, hR'⟩

/-- Two steps each; what spoils a state in between must spoil the last one as well. -/
theorem Simulates.bind {C : σ → Prop} {R : σ → τ → Prop} {S : α → β → Prop} {S' : α' → β' → Prop}
    {x : Effect σ α} {y : Effect τ β} {f : α → Effect σ α'} {g : β → Effect τ β'}
    (hx : Simulates C R S x y) (hf : ∀ a b, S a b → Simulates C R S' (f a) (g b))
    (hC : ∀ a, Preserves (fun s => ¬ C s) (f a)) : Simulates C R S' (x >>= f) (y >>= g) := by
  intro s t hR hend
  rcases runOn_bind_cases x f s with ⟨c, s', hxs, heq⟩ | ⟨a, s', hxs, heq⟩
  · rw [heq] at hend ⊢
    have hstep := hx s t hR (by rwa [hxs])
    rw [hxs] at hstep
    rcases runOn_bind_cases y g t with ⟨d, t', hyt, heq'⟩ | ⟨b, t', hyt, heq'⟩
    · rw [heq']
      rwa [hyt] at hstep
    · rw [hyt] at hstep
      exact hstep.1.elim
  · rw [heq] at hend ⊢
    have hmid : C s' := Classical.byContradiction fun hn => hC a s' hn hend
    have hstep := hx s t hR (by rwa [hxs])
    rw [hxs] at hstep
    rcases runOn_bind_cases y g t with ⟨d, t', hyt, heq'⟩ | ⟨b, t', hyt, heq'⟩
    · rw [hyt] at hstep
      exact hstep.1.elim
    · rw [heq']
      rw [hyt] at hstep
      exact hf a b hstep.1 s' t' hstep.2 hend

/-- Steps for the items of two lists, each with its counterpart. -/
theorem Simulates.each {C : σ → Prop} {R : σ → τ → Prop} {T : α → β → Prop} {S : α' → β' → Prop}
    {f : α → Effect σ α'} {g : β → Effect τ β'}
    (h : ∀ a b, T a b → Simulates C R S (f a) (g b)) (hC : ∀ a, Preserves (fun s => ¬ C s) (f a))
    {as : List α} {bs : List β} (hT : List.Forall₂ T as bs) :
    Simulates C R (List.Forall₂ S) (Effect.each f as) (Effect.each g bs) := by
  induction hT with
  | nil => exact .pure .nil
  | cons hab _ ih =>
    refine (h _ _ hab).bind (fun a' b' hS => ?_) fun a' => ?_
    · exact ih.bind (fun as' bs' hrest => .pure (.cons hS hrest)) fun _ => .pure _
    · exact (Preserves.each fun a _ => hC a).bind fun _ => .pure _

/-- A step that leaves alone what is written down beside its state. -/
def beside (x : Effect σ α) : Effect (σ × τ) α := within Prod.fst (fun s p => (s, p.2)) x

/-- Write down something of a state, behind what was written before. -/
def jot (f : σ → τ) : Effect (σ × List τ) Unit := ofRun fun p => (.ok (), p.1, p.2 ++ [f p.1])

/-- `I` holds of a state and `J` of everything that is written down beside it. -/
def Along (I : σ → Prop) (J : τ → Prop) (p : σ × List τ) : Prop := I p.1 ∧ ∀ a ∈ p.2, J a

section Along
variable {I : σ → Prop} {J : τ → Prop}

theorem along_nil {s : σ} (h : I s) : Along I J (s, []) :=
  ⟨h, fun _ ha => absurd ha List.not_mem_nil⟩

theorem Preserves.beside {x : Effect σ α} (h : Preserves I x) :
    Preserves (Along I J) (beside x) := fun p hp => ⟨h p.1 hp.1, hp.2⟩

theorem Gives.beside {x : Effect σ α} {y : Except Crash α} (h : Gives I x y) :
    Gives (Along I J) (beside x) y := fun p hp => ⟨(h p.1 hp.1).1, (h p.1 hp.1).2, hp.2⟩

theorem Preserves.jot {f : σ → τ} (h : ∀ s, I s → J (f s)) : Preserves (Along I J) (jot f) := by
  rintro ⟨s, written⟩ ⟨hs, hwritten⟩
  exact ⟨hs, List.forall_mem_append.mpr ⟨hwritten, List.forall_mem_singleton.mpr (h s hs)⟩⟩

end Along

/-- The first step does what the second one does, and writes down what it likes. -/
def Notes (x : Effect (σ × τ) α) (y : Effect σ α) : Prop :=
  Simulates (fun _ => True) (fun p s => p.1 = s) Eq x y

namespace Notes

theorem runOn {x : Effect (σ × τ) α} {y : Effect σ α} (h : Notes x y) (p : σ × τ) :
    (x.runOn p).1 = (y.runOn p.1).1 ∧ (x.runOn p).2.1 = (y.runOn p.1).2 :=
  ⟨(h p p.1 rfl trivial).1.eq, (h p p.1 rfl trivial).2⟩

theorem pure (a : α) : Notes (Pure.pure a : Effect (σ × τ) α) (Pure.pure a) := Simulates.pure rfl

theorem bind {x : Effect (σ × τ) α} {y : Effect σ α} {f : α → Effect (σ × τ) β}
    {g : α → Effect σ β} (hx : Notes x y) (hf : ∀ a, Notes (f a) (g a)) :
    Notes (x >>= f) (y >>= g) :=
  Simulates.bind hx (fun a _ hab => hab ▸ hf a) fun _ _ hn => absurd trivial hn

theorem beside (x : Effect σ α) : Notes (Effect.beside x : Effect (σ × τ) α) x := by
  rintro p _ rfl -
  exact ⟨.refl _, rfl⟩

theorem ofExcept (r : Except Crash α) :
    Notes (Effect.ofExcept r : Effect (σ × τ) α) (Effect.ofExcept r) := by
  rintro p _ rfl -
  exact ⟨.refl _, rfl⟩

/-- Writing something down before a step changes nothing of the step. -/
theorem jot {x : Effect (σ × List τ) α} {y : Effect σ α} (f : σ → τ) (h : Notes x y) :
    Notes (Effect.jot f >>= fun _ => x) y := by
  rintro p _ rfl -
  exact h _ p.1 rfl trivial

end Notes
end Switchboard.Effect
