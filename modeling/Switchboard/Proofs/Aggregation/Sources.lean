import Mathlib.Data.List.Forall2
import Switchboard.Aggregation.Merging
import Switchboard.Proofs.Json.Places

/-! Source by source: what any merge makes of one source, and of some sources after others. A merge
gets nothing of a source but the members of its payload. -/
namespace Switchboard

namespace Source
variable {s : Source} {members : Fields Json}

theorem members?_eq_some :
    s.members? = some members ↔ s.succeeded = true ∧ s.payload = .obj members := by
  unfold members?
  cases s.succeeded <;> cases s.payload <;> simp

theorem members?_eq_none :
    s.members? = none ↔ s.succeeded = false ∨ s.payload.object? = none := by
  unfold members?
  cases s.succeeded <;> cases s.payload <;> simp [Json.object?]

theorem ordered_of_members? (h : s.payload.Ordered) (hm : s.members? = some members) :
    Json.Ordered (.obj members) := (members?_eq_some.mp hm).2 ▸ h

end Source

namespace Aggregation.Merge
variable {m : Merge} {merged : Fields Json} {s : Source}

/-- What one source makes of the members merged so far, and the names that are told of it. -/
def addSource (m : Merge) (merged : Fields Json) (s : Source) : Fields Json × List String :=
  match s.members? with
  | some payload => m.add merged payload
  | none => (merged, [])

theorem addSource_of_none (h : s.members? = none) : m.addSource merged s = (merged, []) := by
  rw [addSource, h]

theorem addAll_cons (m : Merge) (merged : Fields Json) (s : Source) (sources : List Source) :
    m.addAll merged (s :: sources) =
      ((m.addAll (m.addSource merged s).1 sources).1,
        s.attribute (m.addSource merged s).2 :: (m.addAll (m.addSource merged s).1 sources).2) := by
  unfold addSource
  cases h : s.members? <;> simp only [addAll, h]

theorem addAll_append (m : Merge) (merged : Fields Json) (before after : List Source) :
    m.addAll merged (before ++ after) =
      ((m.addAll (m.addAll merged before).1 after).1,
        (m.addAll merged before).2 ++ (m.addAll (m.addAll merged before).1 after).2) := by
  induction before generalizing merged with
  | nil => rfl
  | cons s before ih => simp only [List.cons_append, addAll_cons, ih]

/-- Each source is told of in turn, and those without members with no name. -/
theorem forall₂_addAll (m : Merge) (merged : Fields Json) (sources : List Source) :
    List.Forall₂ (fun s t => ∃ fields, t = s.attribute fields ∧ (s.members? = none → fields = []))
      sources (m.addAll merged sources).2 := by
  induction sources generalizing merged with
  | nil => exact .nil
  | cons s sources ih =>
    rw [addAll_cons]
    exact .cons ⟨_, rfl, fun h => by rw [addSource_of_none h]⟩ (ih _)

end Aggregation.Merge
end Switchboard
