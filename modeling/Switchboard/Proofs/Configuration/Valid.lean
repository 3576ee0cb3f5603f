import Switchboard.Configuration.Check

/-! What a configuration without problems satisfies. The two lists of names that are checked for
repetitions are checked alike, each against the names that came before. -/
namespace Switchboard

/-- The text is that of an expression. -/
def Expression.Parses (s : String) : Prop := ∃ e, Expression.parse s = .ok e

namespace Configuration

/-- Routes and transforms are told apart by their names, every route has a mapping, and whatever
stands for an expression is one. -/
structure Valid (c : Configuration) : Prop where
  routes : (c.routes.map (·.id)).Nodup
  mappings : ∀ r ∈ c.routes, r.mappings ≠ []
  references : ∀ r ∈ c.routes, ∀ m ∈ r.mappings, ∀ s,
    m.requestTransform = some s ∨ m.responseTransform = some s → isInline s = true →
      Expression.Parses s
  transforms : (c.transforms.map (·.name)).Nodup
  expressions : ∀ t ∈ c.transforms, ∀ s, t.expression = some s → Expression.Parses s

theorem fault?_eq_none_iff {s : String} : fault? s = none ↔ Expression.Parses s := by
  unfold fault? Expression.Parses
  cases Expression.parse s <;> simp

theorem mem_references {m : Mapping} {s : String} :
    s ∈ references m ↔ m.requestTransform = some s ∨ m.responseTransform = some s := by
  simp [references]

theorem mappingProblems_eq_nil_iff {m : Mapping} :
    mappingProblems m = [] ↔ ∀ s ∈ references m, isInline s = true → Expression.Parses s := by
  unfold mappingProblems
  simp [List.filterMap_eq_nil_iff, fault?_eq_none_iff]

/-- No name is repeated, and none is among those that came before. -/
def Fresh (seen names : List String) : Prop := names.Nodup ∧ ∀ name ∈ names, name ∉ seen

theorem fresh_nil (seen : List String) : Fresh seen [] := ⟨.nil, nofun⟩

theorem fresh_cons {seen names : List String} {name : String} :
    Fresh seen (name :: names) ↔ name ∉ seen ∧ Fresh (name :: seen) names := by
  unfold Fresh
  rw [List.nodup_cons, List.forall_mem_cons]
  simp only [List.mem_cons, not_or]
  constructor
  · rintro ⟨⟨hname, hnodup⟩, hseen, hnames⟩
    exact ⟨hseen, hnodup, fun n hn => ⟨fun h => hname (h ▸ hn), hnames n hn⟩⟩
  · rintro ⟨hseen, hnodup, hnames⟩
    exact ⟨⟨fun h => (hnames name h).1 rfl, hnodup⟩, hseen, fun n hn => (hnames n hn).2⟩

theorem fresh_empty {names : List String} : Fresh [] names ↔ names.Nodup :=
  and_iff_left fun _ _ => List.not_mem_nil

theorem routeProblems_eq_nil_iff {seen : List String} {rs : List Route} :
    routeProblems seen rs = [] ↔ Fresh seen (rs.map (·.id)) ∧
      ∀ r ∈ rs, r.mappings ≠ [] ∧ ∀ m ∈ r.mappings, mappingProblems m = [] := by
  induction rs generalizing seen with
  | nil => exact iff_of_true rfl ⟨fresh_nil seen, fun _ h => absurd h List.not_mem_nil⟩
  | cons r rs ih =>
    have hid : (if r.id ∈ seen then [Problem.duplicateRoute r.id] else []) = [] ↔ r.id ∉ seen := by
      simp
    have hmappings : (if r.mappings.isEmpty then [Problem.noMappings r.id] else []) = [] ↔
        r.mappings ≠ [] := by simp
    simp only [routeProblems, List.append_eq_nil_iff, hid, hmappings, List.flatMap_eq_nil_iff, ih,
      List.map_cons, fresh_cons, List.forall_mem_cons]
    constructor
    · rintro ⟨⟨⟨hfresh, hne⟩, hreferences⟩, hnames, hall⟩
      exact ⟨⟨hfresh, hnames⟩, ⟨hne, hreferences⟩, hall⟩
    · rintro ⟨⟨hfresh, hnames⟩, ⟨hne, hreferences⟩, hall⟩
      exact ⟨⟨⟨hfresh, hne⟩, hreferences⟩, hnames, hall⟩

theorem transformProblems_eq_nil_iff {seen : List String} {ts : List Transform} :
    transformProblems seen ts = [] ↔ Fresh seen (ts.map (·.name)) ∧
      ∀ t ∈ ts, ∀ s, t.expression = some s → Expression.Parses s := by
  induction ts generalizing seen with
  | nil => exact iff_of_true rfl ⟨fresh_nil seen, fun _ h => absurd h List.not_mem_nil⟩
  | cons t ts ih =>
    have hname : (if t.name ∈ seen then [Problem.duplicateTransform t.name] else []) = [] ↔
        t.name ∉ seen := by simp
    have hexpression : (t.expression.bind fault?).toList.map (Problem.badExpression t.name) = [] ↔
        ∀ s, t.expression = some s → Expression.Parses s := by
      simp only [← fault?_eq_none_iff]
      cases t.expression <;> simp
    simp only [transformProblems, List.append_eq_nil_iff, hname, hexpression, ih, List.map_cons,
      fresh_cons, List.forall_mem_cons]
    exact and_and_and_comm

/-- Nothing is wrong with a configuration exactly if it is valid. -/
theorem problems_eq_nil_iff {c : Configuration} : c.problems = [] ↔ c.Valid := by
  unfold problems
  rw [List.append_eq_nil_iff, routeProblems_eq_nil_iff, transformProblems_eq_nil_iff, fresh_empty,
    fresh_empty]
  constructor
  · rintro ⟨⟨hroutes, hall⟩, htransforms, hexpressions⟩
    exact {
      routes := hroutes
      mappings := fun r hr => (hall r hr).1
      references := fun r hr m hm s hs =>
        mappingProblems_eq_nil_iff.mp ((hall r hr).2 m hm) s (mem_references.mpr hs)
      transforms := htransforms
      expressions := hexpressions }
  · intro h
    refine ⟨⟨h.routes, fun r hr => ⟨h.mappings r hr, fun m hm => ?_⟩⟩, h.transforms,
      h.expressions⟩
    exact mappingProblems_eq_nil_iff.mpr fun s hs => h.references r hr m hm s (mem_references.mp hs)

end Configuration
end Switchboard
