/-! Executions that may stop on the way. A crash ends the execution and leaves the state as it was
reached. -/
namespace Switchboard

/-- A stop of the whole execution, with its message if that is text. -/
structure Crash where
  message : Option String
  deriving DecidableEq

def Crash.text (c : Crash) : String := c.message.getD "unknown panic"

/-- A step on a state. -/
abbrev Effect (σ : Type) := ExceptT Crash (StateM σ)

namespace Effect
variable {σ τ α β : Type}

/-- The outcome of a step and the state that it leaves. -/
def runOn (step : Effect σ α) (s : σ) : Except Crash α × σ := (ExceptT.run step).run s

def ofRun (f : σ → Except Crash α × σ) : Effect σ α := ExceptT.mk f

def ofExcept (r : Except Crash α) : Effect σ α := ofRun fun s => (r, s)

/-- A step on a part of the state. -/
def within (get : σ → τ) (set : τ → σ → σ) (step : Effect τ α) : Effect σ α :=
  ofRun fun s =>
    let (r, t) := step.runOn (get s)
    (r, set t s)

/-- A step for each item of a list, in order. -/
def each (f : α → Effect σ β) : List α → Effect σ (List β)
  | [] => return []
  | a :: as => do
    let b ← f a
    return b :: (← each f as)

/-- A step whose failure is forgotten. -/
def bestEffort (step : Effect σ Unit) : Effect σ Unit :=
  ofRun fun s => (.ok (), (step.runOn s).2)

@[simp] theorem runOn_ofRun (f : σ → Except Crash α × σ) (s : σ) : (ofRun f).runOn s = f s := rfl

@[simp] theorem runOn_pure (a : α) (s : σ) : (pure a : Effect σ α).runOn s = (.ok a, s) := rfl

theorem runOn_bind (x : Effect σ α) (f : α → Effect σ β) (s : σ) :
    (x >>= f).runOn s = match x.runOn s with
      | (.ok a, t) => (f a).runOn t
      | (.error c, t) => (.error c, t) := by
  show (ExceptT.bindCont f (x s).1) (x s).2 = _
  unfold runOn
  show _ = match x s with
    | (.ok a, t) => f a t
    | (.error c, t) => (.error c, t)
  rcases x s with ⟨_ | _, _⟩ <;> rfl

/-- A step that follows another one is reached, or the first one crashes. -/
theorem runOn_bind_cases (x : Effect σ α) (f : α → Effect σ β) (s : σ) :
    (∃ c t, x.runOn s = (.error c, t) ∧ (x >>= f).runOn s = (.error c, t)) ∨
      ∃ a t, x.runOn s = (.ok a, t) ∧ (x >>= f).runOn s = (f a).runOn t := by
  rw [runOn_bind]
  rcases x.runOn s with ⟨c | a, t⟩
  · exact .inl ⟨c, t, rfl, rfl⟩
  · exact .inr ⟨a, t, rfl, rfl⟩

@[simp] theorem runOn_get (s : σ) : (get : Effect σ σ).runOn s = (.ok s, s) := rfl

@[simp] theorem runOn_set (s t : σ) : (set t : Effect σ PUnit).runOn s = (.ok ⟨⟩, t) := rfl

@[simp] theorem runOn_modify (f : σ → σ) (s : σ) :
    (modify f : Effect σ PUnit).runOn s = (.ok ⟨⟩, f s) := rfl

@[simp] theorem runOn_throw (c : Crash) (s : σ) :
    (throw c : Effect σ α).runOn s = (.error c, s) := rfl

@[simp] theorem runOn_ofExcept (r : Except Crash α) (s : σ) : (ofExcept r).runOn s = (r, s) := rfl

@[simp] theorem runOn_within (get : σ → τ) (set : τ → σ → σ) (step : Effect τ α) (s : σ) :
    (within get set step).runOn s = ((step.runOn (get s)).1, set (step.runOn (get s)).2 s) := rfl

@[simp] theorem runOn_bestEffort (step : Effect σ Unit) (s : σ) :
    (bestEffort step).runOn s = (.ok (), (step.runOn s).2) := rfl

end Effect
end Switchboard
