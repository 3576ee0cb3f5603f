import Switchboard.Proofs.Execution.Calm
import Switchboard.Proofs.Transform.Memory

/-! Transforms one after the other with one memory, while the clock moves. What is remembered,
forgotten or driven out in between shows in none of them. -/
namespace Switchboard.Transform

/-- What rules make of a record where no handler crashes; no rules leave it as it is. -/
def ruled (handlers : Fields Rule.Handler) (rules : List Rule) (record : Json) : Json :=
  if rules.isEmpty then record
  else
    match Rule.applyAll handlers rules record with
    | .ok v => v
    | .error _ => record

/-- The data that a reference makes where nothing is remembered and no handler crashes. A reference
without a transform that is enabled and meant for the phase leaves the data as it is, and so does an
expression that fails, whatever rules come after it. -/
def plain (transforms : List Transform) (handlers : Fields Rule.Handler) (reference : String)
    (phase : Phase) (data : Json) : Json :=
  if isInline reference then
    match Expression.evaluate reference data with
    | .ok v => v.getD .null
    | .error _ => data
  else
    match find? transforms reference with
    | none => data
    | some t =>
      if t.phase.allows phase then
        match t.expression with
        | none => ruled handlers t.rules data
        | some s =>
          match Expression.evaluate s data with
          | .ok v => ruled handlers t.rules (v.getD .null)
          | .error _ => data
      else data

/-- The transforms of a configuration, with the handlers that their rules call. -/
def Library.ofList (transforms : List Transform) (handlers : Fields Rule.Handler) : Library :=
  ⟨fun name => .ok (find? transforms name), handlers⟩

section
variable {transforms : List Transform} {handlers : Fields Rule.Handler}
  (calm : ∀ name handler, Fields.get? name handlers = some handler →
    ∀ v record c, handler v record ≠ .error (.crashed c))
include calm

theorem ruled_eq (rules : List Rule) (record : Json) :
    (if rules.isEmpty then .ok record else Rule.applyAll handlers rules record) =
      Except.ok (ruled handlers rules record) := by
  unfold ruled
  split
  · rfl
  · cases h : Rule.applyAll handlers rules record with
    | ok v => rfl
    | error c => exact absurd h (Rule.applyAll_ne_error calm rules record c)

theorem shaped_eq (t : Transform) (data : Json) :
    shaped (.ofList transforms handlers) t data = .ok (match t.expression with
      | none => ruled handlers t.rules data
      | some s =>
        match Expression.evaluate s data with
        | .ok v => ruled handlers t.rules (v.getD .null)
        | .error _ => data) := by
  unfold shaped
  cases t.expression with
  | none => exact ruled_eq calm t.rules data
  | some s =>
    simp only [Option.elim_some, expressed?]
    cases Expression.evaluate s data with
    | ok v => exact ruled_eq calm t.rules (v.getD .null)
    | error x => rfl

theorem made_eq_plain (reference : String) (phase : Phase) (data : Json) :
    made (.ofList transforms handlers) reference phase data =
      .ok (plain transforms handlers reference phase data) := by
  unfold made plain
  split
  · unfold expressed?
    cases Expression.evaluate reference data <;> rfl
  · have hfound : (Library.ofList transforms handlers).found? reference =
        find? transforms reference := rfl
    rw [hfound]
    cases find? transforms reference with
    | none => rfl
    | some t =>
      simp only
      split
      · exact shaped_eq calm t data
      · rfl

end

/-- What is done with an executor: data is transformed, or time goes by. -/
inductive Move where
  | apply (reference : String) (phase : Phase) (data : Json)
  | wait (millis : Int)

/-- Runs transforms at the time of its clock, with all that it remembers. -/
structure Executor where
  now : Int
  memory : Memory

namespace Executor

def start (settings : Settings) (now : Int) : Executor := ⟨now, .empty settings⟩

/-- The answer, if there is one, and the executor after it. -/
def step (lib : Library) (x : Executor) : Move → List (Except Crash Json) × Executor
  | .apply reference phase data =>
    let (r, memory) := (Transform.apply lib x.now reference phase data).runOn x.memory
    ([r], { x with memory })
  | .wait millis => ([], { x with now := x.now + millis })

def run (lib : Library) (x : Executor) : List Move → List (Except Crash Json) × Executor
  | [] => ([], x)
  | move :: moves =>
    let (rs, y) := x.step lib move
    let (others, z) := run lib y moves
    (rs ++ others, z)

end Executor

/-- The answer without a memory. -/
def Move.made (lib : Library) : Move → List (Except Crash Json)
  | apply reference phase data => [Transform.made lib reference phase data]
  | wait _ => []

theorem Executor.step_eq {lib : Library} {x : Executor} (hx : x.memory.Sound lib) (move : Move) :
    (x.step lib move).1 = move.made lib ∧ (x.step lib move).2.memory.Sound lib := by
  cases move with
  | apply reference phase data =>
    obtain ⟨hr, hm⟩ := apply_gives lib x.now reference phase data x.memory hx
    exact ⟨congrArg (fun r => [r]) hr, hm⟩
  | wait millis => exact ⟨rfl, hx⟩

theorem Executor.run_eq {lib : Library} {x : Executor} (hx : x.memory.Sound lib)
    (moves : List Move) :
    (x.run lib moves).1 = moves.flatMap (Move.made lib) ∧
      (x.run lib moves).2.memory.Sound lib := by
  induction moves generalizing x with
  | nil => exact ⟨rfl, hx⟩
  | cons move moves ih =>
    obtain ⟨hr, hy⟩ := x.step_eq hx move
    obtain ⟨hothers, hz⟩ := ih hy
    refine ⟨?_, hz⟩
    rw [List.flatMap_cons, ← hr, ← hothers]
    rfl

/-- The answer where nothing is remembered and no handler crashes. -/
def Move.plain (transforms : List Transform) (handlers : Fields Rule.Handler) :
    Move → List (Except Crash Json)
  | apply reference phase data => [.ok (Transform.plain transforms handlers reference phase data)]
  | wait _ => []

/-- Every transform of a run makes of its data what it makes where nothing is remembered. -/
theorem run_eq_plain {handlers : Fields Rule.Handler}
    (calm : ∀ name handler, Fields.get? name handlers = some handler →
      ∀ v record c, handler v record ≠ .error (.crashed c))
    (transforms : List Transform) (settings : Settings) (now : Int) (moves : List Move) :
    ((Executor.start settings now).run (.ofList transforms handlers) moves).1 =
      moves.flatMap (Move.plain transforms handlers) := by
  have hsound := Memory.sound_empty (.ofList transforms handlers) settings
  have hmove : Move.made (.ofList transforms handlers) = Move.plain transforms handlers := by
    funext move
    cases move with
    | apply reference phase data =>
      exact congrArg (fun r => [r]) (made_eq_plain calm reference phase data)
    | wait millis => rfl
  rw [(Executor.run_eq (x := .start settings now) hsound moves).1, hmove]

/-- A transform for responses, asked for on either side, where nothing is ever remembered. -/
theorem run_eq_plain_rename :
    ((Executor.start { transformSeconds := 0, maxExpressions := 0 } 0).run
      (.ofList [{ name := "rename", phase := .response,
                  rules := [{ id := "r", source := "a", target := "b", kind := .custom,
                              settings := { handler := some "keep" } }] }]
        [("keep", fun v _ => .ok v)])
      [.apply "rename" .request (.obj [("a", .bool true)]), .wait 1,
        .apply "rename" .response (.obj [("a", .bool true)])]).1 =
      [.ok (.obj [("a", .bool true)]), .ok (.obj [("b", .bool true)])] := by
  have calm : ∀ name handler,
      Fields.get? name [("keep", (fun v _ => .ok v : Rule.Handler))] = some handler →
        ∀ v record c, handler v record ≠ .error (.crashed c) := by
    intro name handler h v record c hv
    by_cases hname : name = "keep"
    · rw [Fields.get?, if_pos hname] at h
      cases h
      cases hv
    · rw [Fields.get?, if_neg hname] at h
      cases h
  exact run_eq_plain calm _ _ _ _

end Switchboard.Transform
