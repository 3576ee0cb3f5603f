import Switchboard.Proofs.Aggregation.Deep
import Switchboard.Proofs.Aggregation.Failures

/-! Merges that look at the members of payloads and no deeper. One keeps the first value of each
name, the other one gathers all values of a name in an array; either loses no name and makes none up,
and tells of each source the members that are taken from it. -/
namespace Switchboard

namespace Source

/-- What a source has under a name, if it succeeded with an object. -/
def member? (k : String) (s : Source) : Option Json := s.members?.bind (Fields.get? k)

section
variable {s : Source} {k : String}

theorem mem_memberNames : k ∈ s.memberNames ↔ ∃ v, s.member? k = some v := by
  unfold memberNames member?
  cases s.members? <;> simp [Fields.mem_keys_iff]

theorem member?_eq_none : s.member? k = none ↔ k ∉ s.memberNames := by
  rw [mem_memberNames, Option.eq_none_iff_forall_ne_some, not_exists]

theorem nodup_memberNames (h : s.payload.Ordered) : s.memberNames.Nodup := by
  unfold memberNames
  cases hm : s.members? with
  | none => exact List.nodup_nil
  | some members =>
    have hs : Fields.Sorted members := (ordered_of_members? h hm).sorted
    refine List.pairwise_map.mpr (hs.imp fun {e f} hlt heq => ?_)
    exact String.lt_irrefl f.1 (heq ▸ hlt)

end
end Source

namespace Aggregation

/-- All values of a name, if there is one. -/
def inArray : List Json → Option Json
  | [] => none
  | v :: values => some (.arr (v :: values))

/-- The array of a name with one more value. -/
def joinArray (standing : Option Json) (v : Json) : Json :=
  .arr ((match standing with
    | some (.arr values) => values
    | _ => []) ++ [v])

section
variable {merged payload : Fields Json} {values : List Json} {k : String}

theorem get?_addShallow (h : Fields.Sorted payload) (k : String) :
    Fields.get? k (addShallow merged payload).1 =
      (Fields.get? k merged).or (Fields.get? k payload) := by
  have hfresh : Fields.Sorted (payload.filter fun m => !Fields.has m.1 merged) :=
    List.Pairwise.filter _ h
  have hget : Fields.get? k (addShallow merged payload).1 = _ :=
    hfresh.get?_foldl_write (fun _ v => v) merged k
  rw [hget, Fields.get?_filter (fun l => !Fields.has l merged)]
  cases hk : Fields.get? k merged with
  | none => cases hp : Fields.get? k payload <;> simp [Fields.has, hk]
  | some w => simp [Fields.has, hk]

theorem snd_addShallow :
    (addShallow merged payload).2 = (Fields.keys payload).filter fun k => !Fields.has k merged := by
  simp [addShallow, Fields.keys, List.filter_map, Function.comp_def]

theorem get?_addToArrays (h : Fields.Sorted payload)
    (hk : Fields.get? k merged = inArray values) :
    Fields.get? k (addToArrays merged payload).1 =
      inArray (values ++ (Fields.get? k payload).toList) := by
  have hwrite : Fields.get? k (addToArrays merged payload).1 = _ :=
    h.get?_foldl_write joinArray merged k
  rw [hwrite, hk]
  cases Fields.get? k payload with
  | none => simp
  | some v => cases values <;> rfl

end

section
variable {m : Merge} {merged : Fields Json} {s : Source} {sources : List Source}
  {values : List Json} {k : String}

theorem Merge.sorted_addAll (m : Merge) (h : Fields.Sorted merged) (sources : List Source) :
    Fields.Sorted (m.addAll merged sources).1 := by
  induction sources generalizing merged with
  | nil => exact h
  | cons s sources ih =>
    rw [addAll_cons]
    apply ih
    unfold addSource
    cases s.members? with
    | none => exact h
    | some payload =>
      cases m with
      | shallow => exact h.foldl_write (fun _ e => e.2) _
      | deep => exact sorted_mergeMembers "" h payload
      | array => exact h.foldl_write (fun fs e => .arr (gathered fs e.1 ++ [e.2])) payload

theorem get?_addSource_shallow (h : s.payload.Ordered) (k : String) :
    Fields.get? k (Merge.shallow.addSource merged s).1 =
      (Fields.get? k merged).or (s.member? k) := by
  unfold Merge.addSource Source.member?
  cases hm : s.members? with
  | none => simp
  | some payload =>
    exact get?_addShallow (Source.ordered_of_members? h hm).sorted k

theorem get?_addSource_array (h : s.payload.Ordered) (hk : Fields.get? k merged = inArray values) :
    Fields.get? k (Merge.array.addSource merged s).1 =
      inArray (values ++ (s.member? k).toList) := by
  unfold Merge.addSource Source.member?
  cases hm : s.members? with
  | none => simpa using hk
  | some payload =>
    exact get?_addToArrays (Source.ordered_of_members? h hm).sorted hk

theorem get?_addAll_shallow (h : ∀ s ∈ sources, s.payload.Ordered) (k : String) :
    Fields.get? k (Merge.shallow.addAll merged sources).1 =
      (Fields.get? k merged).or (sources.findSome? (Source.member? k)) := by
  induction sources generalizing merged with
  | nil => simp [Merge.addAll]
  | cons s sources ih =>
    obtain ⟨hhead, hrest⟩ := List.forall_mem_cons.mp h
    rw [Merge.addAll_cons, ih hrest, get?_addSource_shallow hhead, Option.or_assoc,
      List.findSome?_cons]
    cases s.member? k <;> rfl

theorem get?_addAll_array (h : ∀ s ∈ sources, s.payload.Ordered)
    (hk : Fields.get? k merged = inArray values) :
    Fields.get? k (Merge.array.addAll merged sources).1 =
      inArray (values ++ sources.filterMap (Source.member? k)) := by
  induction sources generalizing merged values with
  | nil => simpa [Merge.addAll] using hk
  | cons s sources ih =>
    obtain ⟨hhead, hrest⟩ := List.forall_mem_cons.mp h
    rw [Merge.addAll_cons, ih hrest (get?_addSource_array hhead hk), List.filterMap_cons]
    cases s.member? k <;> simp

theorem snd_addSource_shallow : (Merge.shallow.addSource merged s).2 =
    s.memberNames.filter fun k => !Fields.has k merged := by
  unfold Merge.addSource Source.memberNames
  cases s.members? with
  | none => rfl
  | some payload => exact snd_addShallow

theorem snd_addAll_array : (Merge.array.addAll merged sources).2 = ownNames sources := by
  induction sources generalizing merged with
  | nil => rfl
  | cons s sources ih =>
    rw [Merge.addAll_cons, ih]
    unfold Merge.addSource ownNames Source.memberNames
    cases hm : s.members? with
    | none => simp [hm]
    | some payload => simp [hm, Merge.add, addToArrays]

/-- A name that is told was not there before, and some source has it. -/
theorem lacks_of_mem_told (h : ∀ s ∈ sources, s.payload.Ordered) {t : Attribution}
    (ht : t ∈ (Merge.shallow.addAll merged sources).2) (hk : k ∈ t.fields) :
    Fields.get? k merged = none ∧ ∃ s ∈ sources, k ∈ s.memberNames := by
  induction sources generalizing merged with
  | nil => cases ht
  | cons s sources ih =>
    obtain ⟨hhead, hrest⟩ := List.forall_mem_cons.mp h
    rw [Merge.addAll_cons] at ht
    rcases List.mem_cons.mp ht with rfl | ht
    · rw [Source.attribute, snd_addSource_shallow, List.mem_filter] at hk
      exact ⟨by simpa [Fields.has] using hk.2, s, List.mem_cons_self, hk.1⟩
    · obtain ⟨hnone, t, hmem, hname⟩ := ih hrest ht
      rw [get?_addSource_shallow hhead, Option.or_eq_none_iff] at hnone
      exact ⟨hnone.1, t, List.mem_cons_of_mem s hmem, hname⟩

end

/-- No source has the name, and there is nothing of it; or there is the value of the first source
that has it, and the name is told of that source alone. -/
inductive TakesFirst (k : String) (sources : List Source) (members : Fields Json)
    (told : List Attribution) : Prop
  | absent (hsources : ∀ s ∈ sources, k ∉ s.memberNames) (hdata : Fields.get? k members = none)
      (htold : ∀ t ∈ told, k ∉ t.fields)
  | first {before : List Source} {s : Source} {after : List Source} {v : Json}
      {earlier : List Attribution} {fields : List String} {later : List Attribution}
      (hsources : sources = before ++ s :: after) (hbefore : ∀ t ∈ before, k ∉ t.memberNames)
      (hs : s.member? k = some v) (hdata : Fields.get? k members = some v)
      (htold : told = earlier ++ s.attribute fields :: later)
      (hplace : earlier.length = before.length) (honce : fields.count k = 1)
      (hothers : ∀ t ∈ earlier ++ later, k ∉ t.fields)

/-- There is something of a name if some source has it, and this is the array of what the sources
have under it, in their order. -/
structure TakesAll (k : String) (sources : List Source) (members : Fields Json) : Prop where
  absent : (∀ s ∈ sources, k ∉ s.memberNames) → Fields.get? k members = none
  gathered : (∃ s ∈ sources, k ∈ s.memberNames) →
    Fields.get? k members = some (.arr (sources.filterMap (Source.member? k)))

section
variable {sources : List Source} {a : Aggregation} {aggregators : Fields Aggregator}

theorem takesFirst_addAll (h : ∀ s ∈ sources, s.payload.Ordered) (k : String) :
    TakesFirst k sources (Merge.shallow.addAll [] sources).1
      (Merge.shallow.addAll [] sources).2 := by
  have hdata := @get?_addAll_shallow [] sources h k
  cases hfind : sources.findSome? (Source.member? k) with
  | none =>
    have hnone : ∀ s ∈ sources, k ∉ s.memberNames := fun s hs =>
      Source.member?_eq_none.mp (List.findSome?_eq_none_iff.mp hfind s hs)
    refine .absent hnone (by rw [hdata, hfind]; rfl) fun t ht hk => ?_
    obtain ⟨-, s, hs, hname⟩ := lacks_of_mem_told h ht hk
    exact hnone s hs hname
  | some v =>
    rw [hfind] at hdata
    obtain ⟨before, s, after, rfl, hs, hbefore⟩ := List.findSome?_eq_some_iff.mp hfind
    obtain ⟨hfront, hrest⟩ := List.forall_mem_append.mp h
    obtain ⟨hhead, hback⟩ := List.forall_mem_cons.mp hrest
    have hapart : ∀ t ∈ before, k ∉ t.memberNames := fun t ht =>
      Source.member?_eq_none.mp (hbefore t ht)
    have hmerged : Fields.get? k (Merge.shallow.addAll [] before).1 = none := by
      rw [get?_addAll_shallow hfront, List.findSome?_eq_none_iff.mpr hbefore]
      rfl
    refine .first rfl hapart hs hdata (by rw [Merge.addAll_append, Merge.addAll_cons])
      (Merge.forall₂_addAll _ _ _).length_eq.symm ?_ ?_
    · rw [snd_addSource_shallow]
      refine List.count_eq_one_of_mem ((Source.nodup_memberNames hhead).filter _) ?_
      exact List.mem_filter.mpr ⟨Source.mem_memberNames.mpr ⟨v, hs⟩, by simp [Fields.has, hmerged]⟩
    -- Before the source nobody has the name, and after it the name is there.
    · refine List.forall_mem_append.mpr ⟨fun t ht hk => ?_, fun t ht hk => ?_⟩
      · obtain ⟨-, t, ht, hname⟩ := lacks_of_mem_told hfront ht hk
        exact hapart t ht hname
      · obtain ⟨hnone, -⟩ := lacks_of_mem_told hback ht hk
        rw [get?_addSource_shallow hhead, hmerged, hs] at hnone
        cases hnone

theorem takesAll_addAll (h : ∀ s ∈ sources, s.payload.Ordered) (k : String) :
    TakesAll k sources (Merge.array.addAll [] sources).1 := by
  have hdata := @get?_addAll_array [] sources [] k h rfl
  rw [List.nil_append] at hdata
  constructor
  · intro hnone
    have hvalues : sources.filterMap (Source.member? k) = [] :=
      List.filterMap_eq_nil_iff.mpr fun s hs => Source.member?_eq_none.mpr (hnone s hs)
    rw [hdata, hvalues]
    rfl
  · rintro ⟨s, hs, hname⟩
    obtain ⟨v, hv⟩ := Source.mem_memberNames.mp hname
    have hmem : v ∈ sources.filterMap (Source.member? k) := List.mem_filterMap.mpr ⟨s, hs, hv⟩
    rw [hdata]
    cases hvalues : sources.filterMap (Source.member? k) with
    | nil => rw [hvalues] at hmem; cases hmem
    | cons w values => rfl

theorem data_report_merge (hkind : a.kind = .merge) (now : Int) :
    (a.report aggregators now sources).data = .obj (a.merge.addAll [] sources).1 := by
  unfold report combine assemble dropDuplicates
  rw [hkind]
  cases a.deduplicateBy <;> rfl

theorem sources_report_merge (hkind : a.kind = .merge) (now : Int) :
    (a.report aggregators now sources).sources = (a.merge.addAll [] sources).2 := by
  unfold report assemble
  rw [hkind]
  rfl

/-- Without an aggregator that succeeds, a custom aggregation is a shallow merge in all but name. -/
theorem report_of_custom_fails (hkind : a.kind = .custom)
    (h : ∀ f, a.custom? aggregators = some f → ∃ e, f sources = .error e) (now : Int) :
    a.report aggregators now sources =
      { report { a with kind := .merge, merge := .shallow } aggregators now sources with
        kind := .custom } := by
  have hassemble : a.assemble aggregators sources = Merge.shallow.merge sources := by
    unfold custom? at h
    unfold assemble runCustom
    rw [hkind] at h ⊢
    simp only at h ⊢
    cases hf : a.custom.bind fun k => Fields.get? k aggregators with
    | none => rfl
    | some f =>
      obtain ⟨e, he⟩ := h f hf
      simp [he]
  unfold report combine
  rw [hassemble, hkind]
  rfl

end

/-- A shallow merge has of each name the first value and tells it of that source; an array merge has
all values and tells of each source all of its names. Sources are told of one by one, those without
an object with no names. A custom aggregation that does not come off is a shallow merge. -/
theorem merge_conserves (a : Aggregation) (aggregators : Fields Aggregator) (now : Int)
    {sources : List Source} (h : ∀ s ∈ sources, s.payload.Ordered) :
    let r := a.report aggregators now sources
    (a.kind = .merge → a.merge = .shallow → ∃ members, r.data = .obj members ∧
        Fields.Sorted members ∧ ∀ k, TakesFirst k sources members r.sources) ∧
      (a.kind = .merge → a.merge = .array → (∃ members, r.data = .obj members ∧
        Fields.Sorted members ∧ ∀ k, TakesAll k sources members) ∧
          r.sources = sources.map fun s => s.attribute s.memberNames) ∧
      (a.kind = .merge → List.Forall₂ (fun s t => ∃ fields, t = s.attribute fields ∧
        (s.succeeded = false ∨ s.payload.object? = none → fields = [])) sources r.sources) ∧
      (a.kind = .custom → (∀ f, a.custom? aggregators = some f → ∃ e, f sources = .error e) →
        r = { report { a with kind := .merge, merge := .shallow } aggregators now sources with
          kind := .custom }) := by
  intro r
  refine ⟨fun hkind hm => ?_, fun hkind hm => ?_, fun hkind => ?_, fun hkind hfails => ?_⟩
  · refine ⟨_, data_report_merge hkind now, Merge.sorted_addAll _ .nil _, fun k => ?_⟩
    rw [sources_report_merge hkind now, hm]
    exact takesFirst_addAll h k
  · refine ⟨⟨_, data_report_merge hkind now, Merge.sorted_addAll _ .nil _, fun k => ?_⟩, ?_⟩
    · rw [hm]
      exact takesAll_addAll h k
    · have hsources : r.sources = _ := sources_report_merge hkind now
      rw [hsources, hm]
      exact snd_addAll_array
  · have hsources : r.sources = _ := sources_report_merge hkind now
    rw [hsources]
    refine (Merge.forall₂_addAll a.merge [] sources).imp ?_
    rintro s t ⟨fields, rfl, hfields⟩
    exact ⟨fields, rfl, fun hs => hfields (Source.members?_eq_none.mpr hs)⟩
  · exact report_of_custom_fails hkind hfails now

/-- An array as a value, a failure, and a payload that is no object, each way. -/
theorem merge_conserves_overlapping :
    let one : Json := .obj [("a", .arr [.null]), ("b", .bool true)]
    let two : Json := .obj [("a", .bool false), ("c", .null)]
    let sources : List Source :=
      [⟨"1", "one", true, some one, none⟩, ⟨"2", "lost", false, some two, some "gone"⟩,
        ⟨"3", "text", true, some (.str "x"), none⟩, ⟨"4", "two", true, some two, none⟩]
    let aggregators : Fields Aggregator := [("sum", fun _ => .error "no number")]
    let shallow := report ⟨.merge, .shallow, none, none⟩ aggregators 0 sources
    let arrays := report ⟨.merge, .array, none, none⟩ aggregators 0 sources
    (∀ s ∈ sources, s.payload.Ordered) ∧
      (∃ members, shallow.data = .obj members ∧ Fields.Sorted members ∧
        ∀ k, TakesFirst k sources members shallow.sources) ∧
      shallow.sources = [⟨"one", true, ["a", "b"]⟩, ⟨"lost", false, []⟩, ⟨"text", true, []⟩,
        ⟨"two", true, ["c"]⟩] ∧
      (∃ members, arrays.data = .obj members ∧ Fields.Sorted members ∧
        Fields.get? "a" members = some (.arr [.arr [.null], .bool false])) ∧
      report ⟨.custom, .deep, none, some "sum"⟩ aggregators 0 sources =
        { report ⟨.merge, .shallow, none, some "sum"⟩ aggregators 0 sources with
          kind := .custom } := by
  intro one two sources aggregators shallow arrays
  have htwo : two.Ordered := Json.ordered_normal two
  have h : ∀ s ∈ sources, s.payload.Ordered :=
    List.forall_mem_cons.mpr ⟨Json.ordered_normal one, List.forall_mem_cons.mpr
      ⟨htwo, List.forall_mem_cons.mpr ⟨.str "x", List.forall_mem_singleton.mpr htwo⟩⟩⟩
  obtain ⟨members, hdata, hsorted, hall⟩ :=
    ((merge_conserves ⟨.merge, .array, none, none⟩ aggregators 0 h).2.1 rfl rfl).1
  refine ⟨h, (merge_conserves ⟨.merge, .shallow, none, none⟩ aggregators 0 h).1 rfl rfl,
    by decide +kernel, ⟨members, hdata, hsorted, ?_⟩,
    (merge_conserves ⟨.custom, .deep, none, some "sum"⟩ aggregators 0 h).2.2.2 rfl ?_⟩
  · exact (hall "a").gathered ⟨_, List.mem_cons_self, by decide +kernel⟩
  · intro f hf
    cases hf
    exact ⟨"no number", rfl⟩

end Aggregation
end Switchboard
