import Mathlib.Data.List.Nodup
import Switchboard.Proofs.Json.Ordered

/-! Places in a value: the names that lead from object to object, and those of its leaves, which are
all values that are no objects and the objects without members. -/
namespace Switchboard

namespace Json

/-- The value that names lead to, each a member of the object before it. -/
def descend? : List String → Json → Option Json
  | [], v => some v
  | name :: names, v => (v.member? name).bind (descend? names)

/-- The members of an object. -/
def object? : Json → Option (List (String × Json))
  | obj members => some members
  | _ => none

def isLeaf : Json → Bool
  | obj (_ :: _) => false
  | _ => true

mutual

/-- The names that lead to each leaf. -/
def leafNames : Json → List (List String)
  | obj (m :: ms) => leafNamesOf (m :: ms)
  | obj [] => [[]]
  | null => [[]]
  | bool _ => [[]]
  | num _ => [[]]
  | str _ => [[]]
  | arr _ => [[]]

def leafNamesOf : List (String × Json) → List (List String)
  | [] => []
  | (k, v) :: ms => (leafNames v).map (k :: ·) ++ leafNamesOf ms

end

section
variable {v : Json} {names : List String} {members : List (String × Json)}

theorem object?_eq_some : v.object? = some members ↔ v = obj members := by
  cases v <;> simp [object?]

theorem isLeaf_of_object? (h : v.object? = none) : v.isLeaf = true := by
  cases v with
  | obj members => cases h
  | _ => rfl

theorem leafNames_of_isLeaf (h : v.isLeaf = true) : v.leafNames = [[]] := by
  cases v with
  | obj members =>
    cases members with
    | nil => rw [leafNames]
    | cons m ms => cases h
  | _ => rw [leafNames]

theorem leafNames_obj (h : members ≠ []) : (obj members).leafNames = leafNamesOf members := by
  cases members with
  | nil => exact absurd rfl h
  | cons m ms => rw [leafNames]

theorem mem_leafNamesOf_iff : names ∈ leafNamesOf members ↔
    ∃ m ∈ members, ∃ inner ∈ m.2.leafNames, names = m.1 :: inner := by
  induction members with
  | nil => simp [leafNamesOf]
  | cons m ms ih =>
    rw [leafNamesOf, List.mem_append, ih, List.mem_map, List.exists_mem_cons_iff]
    simp only [eq_comm]

/-- Nothing is below a leaf. -/
theorem descend?_of_isLeaf (h : v.isLeaf = true) {w : Json} :
    descend? names v = some w ↔ names = [] ∧ v = w := by
  cases names with
  | nil => simp [descend?]
  | cons k names =>
    have hnone : v.member? k = none := by
      cases v with
      | obj members =>
        cases members with
        | nil => rfl
        | cons m ms => cases h
      | _ => rfl
    simp [descend?, hnone]

/-- Leaves are where their names lead. -/
theorem mem_leafNames_iff (hv : v.Ordered) :
    names ∈ v.leafNames ↔ ∃ w, descend? names v = some w ∧ w.isLeaf = true := by
  have hleaf : ∀ {v : Json} {names : List String}, v.isLeaf = true →
      (names ∈ v.leafNames ↔ ∃ w, descend? names v = some w ∧ w.isLeaf = true) := by
    intro v names h
    rw [leafNames_of_isLeaf h, List.mem_singleton]
    simp only [descend?_of_isLeaf h]
    exact ⟨fun hnil => ⟨v, ⟨hnil, rfl⟩, h⟩, fun ⟨_, ⟨hnil, _⟩, _⟩ => hnil⟩
  induction hv generalizing names with
  | @obj members hs _ ih =>
    by_cases hne : members = []
    · exact hleaf (by rw [hne]; rfl)
    rw [leafNames_obj hne, mem_leafNamesOf_iff]
    constructor
    · rintro ⟨m, hm, inner, hinner, rfl⟩
      obtain ⟨w, hw, hleafw⟩ := (ih m hm).mp hinner
      refine ⟨w, ?_, hleafw⟩
      rw [descend?, member?, hs.get?_of_mem (k := m.1) hm]
      exact hw
    · rintro ⟨w, hw, hleafw⟩
      cases names with
      | nil =>
        cases hw
        cases members with
        | nil => exact absurd rfl hne
        | cons m ms => cases hleafw
      | cons k names =>
        obtain ⟨u, hu, hw⟩ := Option.bind_eq_some_iff.mp hw
        have hm := Fields.mem_of_get? hu
        exact ⟨(k, u), hm, names, (ih (k, u) hm).mpr ⟨w, hw, hleafw⟩, rfl⟩
  | _ => exact hleaf rfl

theorem mem_leafNamesOf_iff_descend? (h : (obj members).Ordered) :
    names ∈ leafNamesOf members ↔
      names ≠ [] ∧ ∃ w, descend? names (obj members) = some w ∧ w.isLeaf = true := by
  by_cases hne : members = []
  · subst hne
    refine iff_of_false List.not_mem_nil ?_
    rintro ⟨hnames, w, hw, -⟩
    exact hnames ((descend?_of_isLeaf rfl).mp hw).1
  · rw [← leafNames_obj hne, mem_leafNames_iff h]
    refine (and_iff_right_of_imp ?_).symm
    rintro ⟨w, hw, hleaf⟩ rfl
    cases hw
    cases members with
    | nil => exact hne rfl
    | cons m ms => cases hleaf

theorem nodup_leafNamesOf (hs : Fields.Sorted members)
    (h : ∀ m ∈ members, m.2.leafNames.Nodup) : (leafNamesOf members).Nodup := by
  induction members with
  | nil => simp [leafNamesOf]
  | cons m ms ih =>
    obtain ⟨hlt, hs⟩ := List.pairwise_cons.mp hs
    obtain ⟨hm, hms⟩ := List.forall_mem_cons.mp h
    rw [leafNamesOf]
    refine (hm.map List.cons_injective).append (ih hs hms) ?_
    intro names hhere hthere
    obtain ⟨inner, -, rfl⟩ := List.mem_map.mp hhere
    obtain ⟨other, hother, inner', -, heq⟩ := mem_leafNamesOf_iff.mp hthere
    have hsame : m.1 = other.1 := (List.cons.inj heq).1
    exact String.lt_irrefl m.1 (hsame ▸ hlt other hother)

theorem nodup_leafNames (hv : v.Ordered) : v.leafNames.Nodup := by
  induction hv with
  | @obj members hs _ ih =>
    by_cases hne : members = []
    · rw [hne, leafNames_of_isLeaf rfl]
      exact List.nodup_singleton []
    · rw [leafNames_obj hne]
      exact nodup_leafNamesOf hs ih
  | _ =>
    rw [leafNames_of_isLeaf rfl]
    exact List.nodup_singleton []

end
end Json
end Switchboard
