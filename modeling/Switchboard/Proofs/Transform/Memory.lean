import Switchboard.Proofs.Effect
import Switchboard.Proofs.Expiring
import Switchboard.Proofs.Expression.Caching
import Switchboard.Transform.Runner

/-! What is remembered between transforms never shows. As long as each look-up that is remembered
is what the library answers, and each tree that of its text, a transform makes of data what it
would make of it without any memory. -/
namespace Switchboard

namespace Transform

/-- The value of an expression, null where it is undefined, and nothing where it fails. -/
def expressed? (s : String) (data : Json) : Option Json :=
  match Expression.evaluate s data with
  | .ok v => some (v.getD .null)
  | .error _ => none

/-- The data that a transform makes. -/
def shaped (lib : Library) (t : Transform) (data : Json) : Except Crash Json :=
  match t.expression.elim (some data) (expressed? · data) with
  | none => .ok data
  | some v => if t.rules.isEmpty then .ok v else Rule.applyAll lib.handlers t.rules v

/-- The transform of a name, if the library has an answer. -/
def Library.found? (lib : Library) (name : String) : Option Transform :=
  match lib.find name with
  | .ok t => t
  | .error _ => none

/-- The data that a reference makes in a phase. -/
def made (lib : Library) (reference : String) (phase : Phase) (data : Json) :
    Except Crash Json :=
  if isInline reference then .ok ((expressed? reference data).getD data)
  else
    match lib.found? reference with
    | none => .ok data
    | some t => if t.phase.allows phase then shaped lib t data else .ok data

/-- Nothing is remembered but what the library and the parser say. -/
structure Memory.Sound (lib : Library) (m : Memory) : Prop where
  found : ∀ name t, (name, t) ∈ m.found.entries → lib.find name = .ok t.value
  parsed : m.parsed.Sound

theorem Memory.sound_empty (lib : Library) (s : Settings) : (Memory.empty s).Sound lib where
  found := by
    intro name t h
    cases h
  parsed := Expression.Cache.sound_empty s.maxExpressions

section Sound
variable (lib : Library)

theorem express_gives (s : String) (data : Json) :
    Effect.Gives (Memory.Sound lib) (express s data) (.ok (expressed? s data)) := by
  intro m h
  obtain ⟨hvalue, hparsed⟩ := h.parsed.evaluate s data
  unfold express expressed?
  rw [← hvalue]
  simp only [Effect.runOn_bind, Effect.runOn_get, Effect.runOn_set]
  cases (m.parsed.evaluate s data).1 with
  | ok v => exact ⟨rfl, h.found, hparsed⟩
  | error e => exact ⟨rfl, h.found, hparsed⟩

theorem run_gives (t : Transform) (data : Json) :
    Effect.Gives (Memory.Sound lib) (run lib t data) (shaped lib t data) := by
  have hrules : ∀ o : Option Json, Effect.Gives (Memory.Sound lib)
      (match o with
        | none => pure data
        | some v => if t.rules.isEmpty then pure v
          else Effect.ofExcept (Rule.applyAll lib.handlers t.rules v))
      (match o with
        | none => .ok data
        | some v => if t.rules.isEmpty then .ok v
          else Rule.applyAll lib.handlers t.rules v) := by
    intro o
    cases o with
    | none => exact .pure data
    | some v =>
      by_cases hr : t.rules.isEmpty = true
      · simp only [hr, ite_true]
        exact .pure v
      · simp only [hr]
        exact .ofExcept _
  unfold run shaped
  cases t.expression with
  | none => exact (Effect.Gives.pure (some data)).bind_ok (hrules (some data))
  | some s => exact (express_gives lib s data).bind_ok (hrules (expressed? s data))

theorem resolve_gives (now : Int) (name : String) :
    Effect.Gives (Memory.Sound lib) (resolve lib now name) (.ok (lib.found? name)) := by
  intro m h
  unfold resolve Library.found?
  rw [Effect.runOn_bind, Effect.runOn_get]
  cases hget : m.found.get? now name with
  | some t =>
    obtain ⟨e, he, hvalue, -⟩ := Expiring.mem_of_get? hget
    simp only [h.found name e he, hvalue, hget]
    exact ⟨rfl, h⟩
  | none =>
    cases hfind : lib.find name with
    | ok t =>
      simp only [hget]
      refine ⟨rfl, ?_, h.parsed⟩
      intro l e he
      rcases Expiring.mem_of_mem_insert he with ⟨rfl, rfl⟩ | he
      · exact hfind
      · exact h.found l e he
    | error e =>
      simp only [hget]
      exact ⟨rfl, h.found, h.parsed⟩

/-- A transform makes what it would make without a memory, which stays sound. -/
theorem apply_gives (now : Int) (reference : String) (phase : Phase) (data : Json) :
    Effect.Gives (Memory.Sound lib) (apply lib now reference phase data)
      (made lib reference phase data) := by
  unfold apply made
  by_cases hinline : isInline reference = true
  · rw [if_pos hinline, if_pos hinline]
    exact (express_gives lib reference data).bind_ok (.pure _)
  · rw [if_neg hinline, if_neg hinline]
    refine (resolve_gives lib now reference).bind_ok ?_
    cases lib.found? reference with
    | none => exact .pure data
    | some t =>
      by_cases hphase : t.phase.allows phase = true
      · simp only [hphase, ite_true]
        exact run_gives lib t data
      · simp only [hphase]
        exact .pure data

end Sound
end Transform
end Switchboard
