import Switchboard.Aggregation.Report
import Switchboard.Proofs.Aggregation.Deep

/-! Deep merging of many objects, defined at one go: an object with all their names, where the
first value of a name stays, or is made one with all other objects of that name if it is an object.
Merging the payloads one after the other comes to the same. -/
namespace Switchboard.Aggregation

/-- What objects have for a name, in their order. -/
def valuesAt (k : String) (objects : List (Fields Json)) : List Json :=
  objects.filterMap (Fields.get? k)

section
variable {k : String} {objects : List (Fields Json)}

theorem sizeOf_get?_le {members : Fields Json} {v : Json} (h : Fields.get? k members = some v) :
    sizeOf v ≤ sizeOf members := by
  have hmem := List.sizeOf_lt_of_mem (Fields.mem_of_get? h)
  rw [Prod.mk.sizeOf_spec] at hmem
  omega

theorem sizeOf_valuesAt_le (k : String) (objects : List (Fields Json)) :
    sizeOf (valuesAt k objects) ≤ sizeOf objects := by
  unfold valuesAt
  induction objects with
  | nil => exact Nat.le_refl _
  | cons members objects ih =>
    rw [List.filterMap_cons]
    split
    · rw [List.cons.sizeOf_spec]
      omega
    · rename_i v hv
      have hle := sizeOf_get?_le hv
      rw [List.cons.sizeOf_spec, List.cons.sizeOf_spec]
      omega

theorem sizeOf_objects_le (values : List Json) :
    sizeOf (values.filterMap Json.object?) ≤ sizeOf values := by
  induction values with
  | nil => exact Nat.le_refl _
  | cons v values ih =>
    rw [List.filterMap_cons]
    split
    · rw [List.cons.sizeOf_spec]
      omega
    · rename_i members hv
      rw [Json.object?_eq_some.mp hv, List.cons.sizeOf_spec, List.cons.sizeOf_spec,
        Json.obj.sizeOf_spec]
      omega

mutual

/-- All objects as one: the names of all of them, each with what its values come to. -/
def unionAll (objects : List (Fields Json)) : Fields Json :=
  Fields.ofList ((objects.flatMap Fields.keys).map fun k => (k, unionOf (valuesAt k objects)))
termination_by (sizeOf objects, 1)
decreasing_by
  rcases Nat.lt_or_eq_of_le (sizeOf_valuesAt_le k objects) with h | h
  · exact Prod.Lex.left _ _ h
  · rw [h]
    exact Prod.Lex.right _ Nat.zero_lt_one

/-- The first of the values, or all objects among them as one if it is an object. -/
def unionOf : List Json → Json
  | [] => .null
  | .obj members :: values => .obj (unionAll (members :: values.filterMap Json.object?))
  | v :: _ => v
termination_by values => (sizeOf values, 0)
decreasing_by
  have hle := sizeOf_objects_le values
  refine Prod.Lex.left _ _ ?_
  rw [List.cons.sizeOf_spec, List.cons.sizeOf_spec, Json.obj.sizeOf_spec]
  omega

end

theorem sorted_unionAll (objects : List (Fields Json)) : Fields.Sorted (unionAll objects) := by
  rw [unionAll]
  exact Fields.sorted_ofList _

theorem get?_unionAll (k : String) (objects : List (Fields Json)) :
    Fields.get? k (unionAll objects) =
      if valuesAt k objects = [] then none else some (unionOf (valuesAt k objects)) := by
  have hkeys : k ∈ objects.flatMap Fields.keys ↔ valuesAt k objects ≠ [] := by
    rw [List.mem_flatMap, valuesAt, Ne, List.filterMap_eq_nil_iff]
    simp [Fields.mem_keys_iff, Option.ne_none_iff_exists']
  rw [unionAll, Fields.get?_ofList_map]
  by_cases hk : valuesAt k objects = []
  · rw [if_neg fun hmem => hkeys.mp hmem hk, if_pos hk]
  · rw [if_pos (hkeys.mpr hk), if_neg hk]

theorem unionOf_of_object? {v : Json} (h : v.object? = none) (values : List Json) :
    unionOf (v :: values) = v := by
  cases v with
  | obj members => cases h
  | _ => rw [unionOf]; exact nofun

theorem valuesAt_concat (k : String) (objects : List (Fields Json)) (members : Fields Json) :
    valuesAt k (objects ++ [members]) = valuesAt k objects ++ (Fields.get? k members).toList := by
  rw [valuesAt, List.filterMap_append]
  cases h : Fields.get? k members with
  | none => simp [valuesAt, h]
  | some v => simp [valuesAt, h]

/-- One object is its own union. -/
theorem unionOf_singleton {v : Json} (hv : v.Ordered) : unionOf [v] = v := by
  induction hv with
  | @obj members hs hmembers ih =>
    rw [unionOf]
    refine congrArg Json.obj (Fields.Sorted.ext (sorted_unionAll _) hs fun k => ?_)
    rw [get?_unionAll]
    have hvalues : valuesAt k (members :: [].filterMap Json.object?) =
        (Fields.get? k members).toList := valuesAt_concat k [] members
    rw [hvalues]
    cases h : Fields.get? k members with
    | none => rfl
    | some v => exact congrArg some (ih (k, v) (Fields.mem_of_get? h))
  | _ => exact unionOf_of_object? rfl []

/-- An object is merged into a union by putting it behind the others. -/
theorem mergeObjects_unionAll {members : Fields Json} (h : Json.Ordered (.obj members))
    (objects : List (Fields Json)) :
    mergeObjects (unionAll objects) members = unionAll (objects ++ [members]) := by
  -- By induction on the payload: under each name what came before is a union of its own.
  generalize hv : Json.obj members = v at h
  induction h generalizing members objects with
  | @obj payload hs hpayload ih =>
    cases hv
    refine Fields.Sorted.ext (sorted_mergeMembers "" (sorted_unionAll objects) payload)
      (sorted_unionAll _) fun k => ?_
    rw [get?_mergeObjects hs, get?_unionAll, get?_unionAll, valuesAt_concat]
    cases hin : Fields.get? k payload with
    | none => rw [Option.toList_none, List.append_nil, mergeAt_none_right]
    | some v =>
      have hmem := Fields.mem_of_get? hin
      rw [Option.toList_some]
      cases valuesAt k objects with
      | nil =>
        rw [if_pos rfl, mergeAt_none_left, List.nil_append, if_neg (List.cons_ne_nil v []),
          unionOf_singleton (hpayload (k, v) hmem)]
      | cons w values =>
        rw [if_neg (List.cons_ne_nil w values), List.cons_append, if_neg (List.cons_ne_nil w _)]
        cases hw : w.object? with
        | none =>
          rw [unionOf_of_object? hw, unionOf_of_object? hw, mergeAt_of_standing hw]
        | some ms =>
          obtain rfl := Json.object?_eq_some.mp hw
          rw [unionOf, unionOf, List.filterMap_append]
          cases hobj : v.object? with
          | none =>
            rw [mergeAt_of_incoming hobj]
            simp [hobj]
          | some inner =>
            obtain rfl := Json.object?_eq_some.mp hobj
            rw [mergeAt_objects, ih (k, .obj inner) hmem _ rfl]
            rfl
  | _ => cases hv

/-- Merging sources one after the other into a union makes the union with all of their payloads. -/
theorem foldl_mergeSource_unionAll {sources : List Source} (h : ∀ s ∈ sources, s.payload.Ordered)
    (objects : List (Fields Json)) :
    sources.foldl mergeSource (unionAll objects) =
      unionAll (objects ++ sources.filterMap Source.members?) := by
  induction sources generalizing objects with
  | nil => rw [List.filterMap_nil, List.append_nil, List.foldl_nil]
  | cons s sources ih =>
    obtain ⟨hs, hsources⟩ := List.forall_mem_cons.mp h
    rw [List.foldl_cons, mergeSource]
    cases hm : s.members? with
    | none => rw [List.filterMap_cons_none hm, ← ih hsources]
    | some members =>
      have hordered := Source.ordered_of_members? hs hm
      rw [List.filterMap_cons_some hm, List.append_cons, ← ih hsources,
        ← mergeObjects_unionAll hordered]

end

/-- The data of a deep merge is what its sources come to one after the other. -/
theorem data_report_deep {a : Aggregation} (hkind : a.kind = .merge) (hdeep : a.merge = .deep)
    (aggregators : Fields Aggregator) (now : Int) (sources : List Source) :
    (a.report aggregators now sources).data = .obj (sources.foldl mergeSource []) := by
  unfold report combine assemble dropDuplicates
  rw [hkind, hdeep, ← fst_addAll_deep]
  cases a.deduplicateBy <;> rfl

/-- A deep merge gives all payloads that are objects as one object. A value in it that is no object
is never overwritten by what comes later, and it is, arrays included, as it stands at the same place
of the payload of a success. -/
theorem data_deep_eq_unionAll {a : Aggregation} (hkind : a.kind = .merge) (hdeep : a.merge = .deep)
    (aggregators : Fields Aggregator) (now : Int) {sources : List Source}
    (h : ∀ s ∈ sources, s.payload.Ordered) :
    (a.report aggregators now sources).data =
        .obj (unionAll (sources.filterMap Source.members?)) ∧
      (∀ later names v, (∀ s ∈ later, s.payload.Ordered) → v.object? = none →
        Json.descend? names (a.report aggregators now sources).data = some v →
        Json.descend? names (a.report aggregators now (sources ++ later)).data = some v) ∧
      (∀ names v, v.object? = none →
        Json.descend? names (a.report aggregators now sources).data = some v →
        ∃ s ∈ sources, s.succeeded = true ∧ Json.descend? names s.payload = some v) := by
  refine ⟨?_, fun later names v hlater hv hdata => ?_, fun names v hv hdata => ?_⟩
  · have hempty : unionAll [] = [] := by rw [unionAll]; rfl
    have hunion := foldl_mergeSource_unionAll h []
    rw [hempty] at hunion
    rw [data_report_deep hkind hdeep, hunion]
    rfl
  · rw [data_report_deep hkind hdeep] at hdata ⊢
    obtain ⟨w, hw, hsame⟩ := descend?_foldl_of_standing hlater hdata
    rw [List.foldl_append, hw, hsame hv]
  · rw [data_report_deep hkind hdeep] at hdata
    rcases leaf_of_foldl h hdata (Json.isLeaf_of_object? hv) with
      hnone | ⟨before, s, after, members, rfl, hmembers, -, hs⟩
    · obtain ⟨-, rfl⟩ := (Json.descend?_of_isLeaf rfl).mp hnone
      cases hv
    · obtain ⟨hsucceeded, hpayload⟩ := Source.members?_eq_some.mp hmembers
      exact ⟨s, by simp, hsucceeded, hpayload ▸ hs⟩

/-- A failure between two objects: the arrays stay apart, the empty object is filled, and the object
that comes to a value that is none is left out. -/
theorem data_deep_eq_unionAll_nested :
    let one : Fields Json :=
      [("a", .obj [("list", .arr [.null]), ("more", .obj [])]), ("b", .bool true)]
    let two : Fields Json :=
      [("a", .obj [("list", .arr [.str "x"]), ("more", .obj [("c", .null)])]),
        ("b", .obj [("d", .null)])]
    let sources : List Source :=
      [⟨"1", "one", true, some (.obj one), none⟩, ⟨"2", "lost", false, none, some "gone"⟩,
        ⟨"3", "two", true, some (.obj two), none⟩]
    (report ⟨.merge, .deep, none, none⟩ [] 0 sources).data = .obj (unionAll [one, two]) ∧
      unionAll [one, two] =
        [("a", .obj [("list", .arr [.null]), ("more", .obj [("c", .null)])]),
          ("b", .bool true)] := by
  intro one two sources
  have hordered : ∀ s ∈ sources, s.payload.Ordered :=
    List.forall_mem_cons.mpr ⟨Json.ordered_normal (.obj one), List.forall_mem_cons.mpr
      ⟨.null, List.forall_mem_singleton.mpr (Json.ordered_normal (.obj two))⟩⟩
  have hdata : (report ⟨.merge, .deep, none, none⟩ [] 0 sources).data =
      .obj (unionAll [one, two]) := (data_deep_eq_unionAll rfl rfl [] 0 hordered).1
  exact ⟨hdata, Json.obj.inj (hdata.symm.trans rfl)⟩

end Switchboard.Aggregation
