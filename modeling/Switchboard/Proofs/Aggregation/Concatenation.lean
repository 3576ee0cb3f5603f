import Mathlib.Data.List.Forall2
import Switchboard.Aggregation.Concat
import Switchboard.Proofs.Json.Ordered

/-! Putting the lists of payloads one after the other: no item is lost and none is there twice.
Whether a payload without a list is an item as it is, or under the name of its integration, hangs on
all sources together, so the lists of two groups of sources are put together only if both groups go
the same way. -/
namespace Switchboard

namespace Json

/-- A value carries a list: it is one, or it is an object and has one under the first of the names
that have one. -/
inductive Carries : Json → String → List Json → Prop
  | bare (items : List Json) : Carries (.arr items) "results" items
  | member {members : List (String × Json)} {before after : List String} {k : String}
      {items : List Json} (hnames : listNames = before ++ k :: after)
      (hbefore : ∀ l ∈ before, ∀ others, Fields.get? l members ≠ some (.arr others))
      (h : Fields.get? k members = some (.arr items)) : Carries (.obj members) k items

theorem Carries.mem_listNames {v : Json} {k : String} {items : List Json} (h : v.Carries k items) :
    k ∈ listNames := by
  cases h with
  | bare => simp [listNames]
  | member hnames => simp [hnames]

def CarriesList (v : Json) : Prop := ∃ k items, v.Carries k items

end Json

namespace Source

/-- The items of a source: those of its list, or its payload as the only one. -/
inductive Gives : Source → List Json → Prop
  | list {s : Source} {k : String} {items : List Json} (h : s.payload.Carries k items) :
      Gives s items
  | whole {s : Source} (h : ¬ s.payload.CarriesList) : Gives s [s.payload]

section
variable {s : Source} {sources xs ys : List Source} {members : Fields Json} {k l : String}
  {items : List Json}

theorem listAt?_eq_some :
    listAt? members l = some (k, items) ↔ l = k ∧ Fields.get? l members = some (.arr items) := by
  unfold listAt?
  split <;> simp_all

theorem listAt?_eq_none :
    listAt? members l = none ↔ ∀ items, Fields.get? l members ≠ some (.arr items) := by
  unfold listAt?
  split <;> simp_all

theorem list?_eq_some : s.list? = some (k, items) ↔ s.payload.Carries k items := by
  unfold list?
  constructor
  · intro h
    split at h
    · cases h
      rename_i hpayload
      exact hpayload ▸ .bare items
    · rename_i hpayload
      obtain ⟨before, l, after, hnames, hl, hbefore⟩ := List.findSome?_eq_some_iff.mp h
      obtain ⟨rfl, hget⟩ := listAt?_eq_some.mp hl
      exact hpayload ▸ .member hnames (fun l hmem => listAt?_eq_none.mp (hbefore l hmem)) hget
    · cases h
  · generalize s.payload = v
    rintro (_ | ⟨hnames, hbefore, hget⟩)
    · rfl
    · exact List.findSome?_eq_some_iff.mpr ⟨_, _, _, hnames, listAt?_eq_some.mpr ⟨rfl, hget⟩,
        fun l hmem => listAt?_eq_none.mpr (hbefore l hmem)⟩

theorem list?_eq_none : s.list? = none ↔ ¬ s.payload.CarriesList := by
  simp only [Json.CarriesList, ← list?_eq_some, Option.eq_none_iff_forall_ne_some, Prod.forall,
    not_exists, ne_eq]

theorem gives_items (s : Source) : s.Gives s.items := by
  unfold items
  cases h : s.list? with
  | none => exact .whole (list?_eq_none.mp h)
  | some e => exact .list (list?_eq_some.mp h)

theorem forall₂_gives (sources : List Source) :
    List.Forall₂ Gives sources (sources.map Source.items) := by
  induction sources with
  | nil => exact .nil
  | cons s sources ih => exact .cons s.gives_items ih

theorem concat_of_carriesList (h : ∃ s ∈ sources, s.payload.CarriesList) :
    (concat sources).2 = sources.flatMap Source.items ∧
      ∃ before s after items, sources = before ++ s :: after ∧
        (∀ t ∈ before, ¬ t.payload.CarriesList) ∧ s.payload.Carries (concat sources).1 items := by
  unfold concat
  cases hfind : sources.findSome? list? with
  | none =>
    obtain ⟨s, hs, hlist⟩ := h
    exact absurd hlist (list?_eq_none.mp (List.findSome?_eq_none_iff.mp hfind s hs))
  | some e =>
    obtain ⟨before, s, after, hsources, hs, hbefore⟩ := List.findSome?_eq_some_iff.mp hfind
    exact ⟨rfl, before, s, after, e.2, hsources, fun t ht => list?_eq_none.mp (hbefore t ht),
      list?_eq_some.mp hs⟩

theorem concat_of_not_carriesList (h : ∀ s ∈ sources, ¬ s.payload.CarriesList) :
    concat sources = ("results", sources.map tagged) := by
  have hnone : sources.findSome? list? = none :=
    List.findSome?_eq_none_iff.mpr fun s hs => list?_eq_none.mpr (h s hs)
  rw [concat, hnone]

theorem fst_concat_mem (sources : List Source) : (concat sources).1 ∈ listNames := by
  by_cases h : ∃ s ∈ sources, s.payload.CarriesList
  · obtain ⟨-, before, s, after, items, -, -, hs⟩ := concat_of_carriesList h
    exact hs.mem_listNames
  · rw [concat_of_not_carriesList fun s hs hlist => h ⟨s, hs, hlist⟩]
    simp [listNames]

/-- The lists of two groups come one after the other if both groups have a list or neither has. -/
theorem concat_append (h : ((∃ s ∈ xs, s.payload.CarriesList) ∧ ∃ s ∈ ys, s.payload.CarriesList) ∨
      ∀ s ∈ xs ++ ys, ¬ s.payload.CarriesList) :
    (concat (xs ++ ys)).2 = (concat xs).2 ++ (concat ys).2 := by
  rcases h with ⟨hx, hy⟩ | h
  · obtain ⟨s, hs, hlist⟩ := hx
    have hboth : ∃ s ∈ xs ++ ys, s.payload.CarriesList :=
      ⟨s, List.mem_append_left ys hs, hlist⟩
    rw [(concat_of_carriesList hboth).1, (concat_of_carriesList ⟨s, hs, hlist⟩).1,
      (concat_of_carriesList hy).1, List.flatMap_append]
  · obtain ⟨hx, hy⟩ := List.forall_mem_append.mp h
    rw [concat_of_not_carriesList h, concat_of_not_carriesList hx, concat_of_not_carriesList hy,
      List.map_append]

theorem tagged_eq (s : Source) :
    s.tagged = .obj [("data", s.payload), ("source", .str s.name)] := by
  have hlt : "data" < "source" := by decide
  simp [tagged, Json.ofList, Fields.ofList, Fields.insert, hlt]

/-- The names of the three members are different, whichever name the list has. -/
theorem combine_perm (sources : List Source) : ∃ members, combine sources = .obj members ∧
    Fields.Sorted members ∧
    members.Perm [((concat sources).1, .arr (concat sources).2),
      ("sources", .arr (sources.map fun s => .str s.name)),
      ("count", .ofNat (concat sources).2.length)] := by
  refine ⟨_, rfl, Fields.sorted_ofList _, Fields.perm_ofList ?_⟩
  have hnames : ∀ k ∈ listNames, [k, "sources", "count"].Nodup := by decide
  exact hnames _ (fst_concat_mem sources)

end

/-- The combined payload is an object of three members: the names of all integrations, a list and its
length. If some payload carries a list, the list is made of the items of each source in turn, under
the name of the first list; otherwise it has each payload under the name of its integration. -/
theorem combine_conserves (sources : List Source) :
    (∃ members, combine sources = .obj members ∧ Fields.Sorted members ∧
        members.Perm [((concat sources).1, .arr (concat sources).2),
          ("sources", .arr (sources.map fun s => .str s.name)),
          ("count", .ofNat (concat sources).2.length)]) ∧
      ((∃ s ∈ sources, s.payload.CarriesList) →
        (∃ parts, (concat sources).2 = parts.flatten ∧ List.Forall₂ Gives sources parts) ∧
          ∃ before s after items, sources = before ++ s :: after ∧
            (∀ t ∈ before, ¬ t.payload.CarriesList) ∧
            s.payload.Carries (concat sources).1 items) ∧
      ((∀ s ∈ sources, ¬ s.payload.CarriesList) → concat sources = ("results",
        sources.map fun s => .obj [("data", s.payload), ("source", .str s.name)])) ∧
      ∀ more, ((∃ s ∈ sources, s.payload.CarriesList) ∧ (∃ s ∈ more, s.payload.CarriesList)) ∨
          (∀ s ∈ sources ++ more, ¬ s.payload.CarriesList) →
        (concat (sources ++ more)).2 = (concat sources).2 ++ (concat more).2 := by
  refine ⟨combine_perm sources, fun h => ?_, fun h => ?_, fun more => concat_append⟩
  · obtain ⟨hitems, hfirst⟩ := concat_of_carriesList h
    exact ⟨⟨sources.map Source.items, hitems, forall₂_gives sources⟩, hfirst⟩
  · rw [concat_of_not_carriesList h]
    exact congrArg (Prod.mk "results") (List.map_congr_left fun s _ => s.tagged_eq)

/-- A name that has no list is passed over, and a payload without a list is one item; with no list
at all it is tagged. -/
theorem combine_conserves_mixed :
    let payload : Json := .obj [("items", .arr [.null, .bool true]), ("results", .ofNat 2)]
    let one : Source := ⟨"1", "one", true, some payload, none⟩
    let two : Source := ⟨"2", "two", true, some (.str "x"), none⟩
    payload.Carries "items" [.null, .bool true] ∧ ¬ two.payload.CarriesList ∧
      concat [one, two] = ("items", [.null, .bool true, .str "x"]) ∧
      (∃ parts, (concat [one, two]).2 = parts.flatten ∧ List.Forall₂ Gives [one, two] parts) ∧
      concat [two] = ("results", [.obj [("data", .str "x"), ("source", .str "two")]]) ∧
      (concat ([one, two] ++ [one])).2 = (concat [one, two]).2 ++ (concat [one]).2 := by
  intro payload one two
  have hlist : payload.Carries "items" [.null, .bool true] := list?_eq_some (s := one).mp rfl
  have htwo : ¬ two.payload.CarriesList := list?_eq_none.mp rfl
  have hmixed : ∃ s ∈ [one, two], s.payload.CarriesList := ⟨one, .head _, _, _, hlist⟩
  have halone : ∃ s ∈ [one], s.payload.CarriesList := ⟨one, .head _, _, _, hlist⟩
  refine ⟨hlist, htwo, rfl, ((combine_conserves [one, two]).2.1 hmixed).1, ?_,
    (combine_conserves [one, two]).2.2.2 [one] (.inl ⟨hmixed, halone⟩)⟩
  exact (combine_conserves [two]).2.2.1 (List.forall_mem_singleton.mpr htwo)

end Source
end Switchboard
