import Switchboard.Proofs.Aggregation.Union

/-! Which source of a deep merge gave which leaf. As lists of names the places that are told are
exact, whatever the sources are. As text they are so where no name has a point in it and no two
payloads have an object under the empty name: there the text of a place starts anew. -/
namespace Switchboard

/-- No name that leads to a leaf has a point in it. -/
def Json.Dotless (v : Json) : Prop :=
  ∀ names ∈ v.leafNames, ∀ name ∈ names, '.' ∉ name.toList

/-- There is an object under the empty name. -/
def Json.nestsUnnamed (v : Json) : Bool := ((v.member? "").bind object?).isSome

theorem Json.nestsUnnamed_obj {members : Fields Json} : (obj members).nestsUnnamed = true ↔
    ∃ inner, Fields.get? "" members = some (obj inner) := by
  simp [nestsUnnamed, member?, Option.isSome_iff_exists, Option.bind_eq_some_iff, object?_eq_some]

/-- An integration succeeded with an object that has an object under the empty name. -/
def Source.nestsUnnamed (s : Source) : Bool := s.succeeded && s.payload.nestsUnnamed

namespace Aggregation

/-- The leaves of a payload for which there is room beside the members merged so far. -/
def newPlaces (merged payload : Fields Json) : List (List String) :=
  (Json.leafNamesOf payload).filter fun names => isAbsent names (some (.obj merged))

def sourcePlaces (merged : Fields Json) (s : Source) : List (List String) :=
  match s.members? with
  | some payload => newPlaces merged payload
  | none => []

/-- The places that each source gives. -/
def places (merged : Fields Json) : List Source → List (List (List String))
  | [] => []
  | s :: sources => sourcePlaces merged s :: places (mergeSource merged s) sources

section
variable {merged : Fields Json} {s : Source} {sources : List Source} {v w : Json}
  {names : List String}

theorem length_places (merged : Fields Json) (sources : List Source) :
    (places merged sources).length = sources.length := by
  induction sources generalizing merged with
  | nil => rfl
  | cons s sources ih => exact congrArg Nat.succ (ih _)

theorem places_append (merged : Fields Json) (before after : List Source) :
    places merged (before ++ after) =
      places merged before ++ places (before.foldl mergeSource merged) after := by
  induction before generalizing merged with
  | nil => rfl
  | cons s before ih => exact congrArg (sourcePlaces merged s :: ·) (ih _)

theorem mem_sourcePlaces_iff (hs : s.payload.Ordered) : names ∈ sourcePlaces merged s ↔
    ∃ payload, s.members? = some payload ∧ isAbsent names (some (.obj merged)) = true ∧
      names ≠ [] ∧ ∃ v, Json.descend? names (.obj payload) = some v ∧ v.isLeaf = true := by
  unfold sourcePlaces
  cases hm : s.members? with
  | none => simp
  | some payload =>
    have hordered := Source.ordered_of_members? hs hm
    simp [newPlaces, List.mem_filter, Json.mem_leafNamesOf_iff_descend? hordered, and_comm]

theorem nodup_sourcePlaces (hs : s.payload.Ordered) : (sourcePlaces merged s).Nodup := by
  unfold sourcePlaces
  cases hm : s.members? with
  | none => exact List.nodup_nil
  | some payload =>
    have hordered := Source.ordered_of_members? hs hm
    refine List.Nodup.filter _ (Json.nodup_leafNamesOf hordered.sorted fun m hmem => ?_)
    exact Json.nodup_leafNames (hordered.member m.2 (hordered.sorted.get?_of_mem hmem))

/-- A place that a source gives is filled from then on. -/
theorem descend?_of_mem_sourcePlaces (hs : s.payload.Ordered) (h : names ∈ sourcePlaces merged s) :
    ∃ v, Json.descend? names (.obj (mergeSource merged s)) = some v := by
  obtain ⟨payload, hm, hroom, -, v, hv, -⟩ := (mem_sourcePlaces_iff hs).mp h
  refine ⟨v, ?_⟩
  have hmerged := descend?_mergeAt_of_isAbsent (ordered_members hs) hroom (v := v)
    (by rw [hm]; exact hv)
  rwa [← mergeSource_eq] at hmerged

/-- Where there is room at the end, no source has given anything. -/
theorem not_mem_places_of_isAbsent (hs : ∀ s ∈ sources, s.payload.Ordered)
    (h : isAbsent names (some (.obj (sources.foldl mergeSource merged))) = true) :
    ∀ ns ∈ places merged sources, names ∉ ns := by
  induction sources generalizing merged with
  | nil => exact fun ns hns => absurd hns List.not_mem_nil
  | cons s sources ih =>
    obtain ⟨hhead, hrest⟩ := List.forall_mem_cons.mp hs
    refine List.forall_mem_cons.mpr ⟨fun hmem => ?_, ih hrest h⟩
    obtain ⟨v, hv⟩ := descend?_of_mem_sourcePlaces hhead hmem
    have hnone := descend?_of_isAbsent (isAbsent_of_foldl hrest h)
    rw [Option.bind_some, hv] at hnone
    cases hnone

/-- Where something stands at the beginning, no source gives anything. -/
theorem not_mem_places_of_standing (hs : ∀ s ∈ sources, s.payload.Ordered)
    (h : Json.descend? names (.obj merged) = some w) :
    ∀ ns ∈ places merged sources, names ∉ ns := by
  induction sources generalizing merged w with
  | nil => exact fun ns hns => absurd hns List.not_mem_nil
  | cons s sources ih =>
    obtain ⟨hhead, hrest⟩ := List.forall_mem_cons.mp hs
    obtain ⟨u, hu, -⟩ := descend?_mergeSource_of_standing hhead h
    refine List.forall_mem_cons.mpr ⟨fun hmem => ?_, ih hrest hu⟩
    obtain ⟨-, -, hroom, -⟩ := (mem_sourcePlaces_iff hhead).mp hmem
    have hnone := descend?_of_isAbsent hroom
    rw [Option.bind_some, h] at hnone
    cases hnone

/-- Each leaf is given by one source, which has it, and by no other one. -/
theorem places_of_leaf (hs : ∀ s ∈ sources, s.payload.Ordered) (hne : names ≠ [])
    (h : Json.descend? names (.obj (sources.foldl mergeSource [])) = some v)
    (hleaf : v.isLeaf = true) :
    ∃ before s after payload, sources = before ++ s :: after ∧ s.members? = some payload ∧
      Json.descend? names (.obj payload) = some v ∧
      names ∈ sourcePlaces (before.foldl mergeSource []) s ∧
      (∀ ns ∈ places [] before, names ∉ ns) ∧
      ∀ ns ∈ places (mergeSource (before.foldl mergeSource []) s) after, names ∉ ns := by
  rcases leaf_of_foldl hs h hleaf with hnone | ⟨before, s, after, payload, rfl, hm, hroom, hv⟩
  · exact absurd ((Json.descend?_of_isLeaf rfl).mp hnone).1 hne
  · obtain ⟨hbefore, hrest⟩ := List.forall_mem_append.mp hs
    obtain ⟨hhead, hafter⟩ := List.forall_mem_cons.mp hrest
    have hmem : names ∈ sourcePlaces (before.foldl mergeSource []) s :=
      (mem_sourcePlaces_iff hhead).mpr ⟨payload, hm, hroom, hne, v, hv, hleaf⟩
    obtain ⟨w, hw⟩ := descend?_of_mem_sourcePlaces hhead hmem
    exact ⟨before, s, after, payload, rfl, hm, hv, hmem, not_mem_places_of_isAbsent hbefore hroom,
      not_mem_places_of_standing hafter hw⟩

end

/-- The text of a place: its names with a point between them. -/
def joined (names : List String) : String := ".".intercalate names

/-- Below the empty path a name stands alone, whether or not that path has names. -/
def placeOf (path k : String) : String := if path = "" then k else joinName path k

/-- The text that a merge has for a place below a path. -/
def placeText (path : String) : List String → String
  | [] => path
  | k :: names => names.foldl joinName (placeOf path k)

section
variable {path k : String} {names : List String} {merged ms : Fields Json} {v : Json}
  {standing : Option Json}

theorem foldl_joinName (k : String) (names : List String) :
    names.foldl joinName k = joined (k :: names) := by
  induction names generalizing k with
  | nil => rfl
  | cons l names ih => exact ih (joinName k l)

theorem placeText_empty (h : names ≠ []) : placeText "" names = joined names := by
  cases names with
  | nil => exact absurd rfl h
  | cons k names => exact foldl_joinName k names

theorem placeText_of_ne (h : path ≠ "") (names : List String) :
    placeText path names = names.foldl joinName path := by
  cases names with
  | nil => rfl
  | cons k names => rw [placeText, placeOf, if_neg h, List.foldl_cons]

theorem joinName_ne_empty (path k : String) : joinName path k ≠ "" := by
  intro h
  have hlist := congrArg String.toList h
  simp [joinName] at hlist

mutual

theorem leaves_eq (path : String) (v : Json) :
    leaves path v = v.leafNames.map fun names => names.foldl joinName path := by
  cases v with
  | obj ms =>
    cases ms with
    | nil => rfl
    | cons m ms => exact leavesOf_eq path (m :: ms)
  | _ => rfl

theorem leavesOf_eq (path : String) (ms : List (String × Json)) :
    leavesOf path ms = (Json.leafNamesOf ms).map fun names => names.foldl joinName path := by
  cases ms with
  | nil => rfl
  | cons m ms =>
    rw [leavesOf, Json.leafNamesOf, List.map_append, List.map_map, leaves_eq, leavesOf_eq]
    rfl

end

/-- Of the first member those leaves are new for which there is room under its name; a merge of it
takes no room from the others. -/
theorem newPlaces_cons (hms : Fields.Sorted ((k, v) :: ms)) (w : Json) :
    newPlaces merged ((k, v) :: ms) =
      (v.leafNames.filter fun names => isAbsent names (Fields.get? k merged)).map (k :: ·) ++
        newPlaces (Fields.insert k w merged) ms := by
  obtain ⟨hlt, -⟩ := List.pairwise_cons.mp hms
  rw [newPlaces, Json.leafNamesOf, List.filter_append, List.filter_map]
  refine congrArg₂ (· ++ ·) rfl (List.filter_congr fun names hnames => ?_)
  obtain ⟨m, hm, inner, -, rfl⟩ := Json.mem_leafNamesOf_iff.mp hnames
  have hne : m.1 ≠ k := fun h => String.lt_irrefl k (h ▸ hlt m hm)
  rw [isAbsent, isAbsent, Fields.get?_insert_of_ne hne]

/-- Merging members writes a text for each new place if merging each of them does so. -/
theorem snd_mergeMembers (hms : Fields.Sorted ms)
    (h : ∀ m ∈ ms, (mergeValue (placeOf path m.1) (Fields.get? m.1 merged) m.2).2 =
      (m.2.leafNames.filter fun names => isAbsent names (Fields.get? m.1 merged)).map
        fun names => names.foldl joinName (placeOf path m.1)) :
    (mergeMembers path merged ms).2 = (newPlaces merged ms).map (placeText path) := by
  induction ms generalizing merged with
  | nil => rfl
  | cons m ms ih =>
    obtain ⟨k, v⟩ := m
    obtain ⟨hhead, hrest⟩ := List.forall_mem_cons.mp h
    obtain ⟨hlt, hsorted⟩ := List.pairwise_cons.mp hms
    -- What the first member becomes is no matter for the others, which have other names.
    have htail (w : Json) : (mergeMembers path (Fields.insert k w merged) ms).2 = _ :=
      ih hsorted fun m hm => by
        have hne : m.1 ≠ k := fun h => String.lt_irrefl k (h ▸ hlt m hm)
        rw [Fields.get?_insert_of_ne hne]
        exact hrest m hm
    rw [newPlaces_cons hms, List.map_append, ← htail, List.map_map]
    exact congrArg (· ++ _) hhead

/-- Unless two objects meet, a merge writes a text for each leaf of a value that nothing stood in
the place of, and no text else. -/
theorem snd_mergeValue_of_apart
    (h : ∀ members, standing = some (.obj members) → v.object? = none) :
    (mergeValue path standing v).2 =
      (v.leafNames.filter fun names => isAbsent names standing).map
        fun names => names.foldl joinName path := by
  cases standing with
  | none =>
    have hall : (v.leafNames.filter fun names => isAbsent names none) = v.leafNames :=
      List.filter_eq_self.mpr fun _ _ => isAbsent_none
    rw [hall, ← leaves_eq]
    cases v <;> rfl
  | some w =>
    have hnone : (v.leafNames.filter fun names => isAbsent names (some w)) = [] := by
      refine List.filter_eq_nil_iff.mpr fun names hnames => ?_
      cases w with
      | obj members =>
        rw [Json.leafNames_of_isLeaf (Json.isLeaf_of_object? (h members rfl)),
          List.mem_singleton] at hnames
        rw [hnames]
        exact Bool.false_ne_true
      | _ => cases names <;> exact Bool.false_ne_true
    rw [hnone]
    cases w with
    | obj members =>
      have hobj := h members rfl
      cases v with
      | obj ms => cases hobj
      | _ => rfl
    | _ => cases v <;> rfl

/-- Below a path that is not empty, a merge writes a text for each leaf that it adds. -/
theorem snd_mergeValue (hv : v.Ordered) (standing : Option Json) (hpath : path ≠ "") :
    (mergeValue path standing v).2 =
      (v.leafNames.filter fun names => isAbsent names standing).map
        fun names => names.foldl joinName path := by
  induction hv generalizing path standing with
  | @obj ms hs _ ih =>
    by_cases hmeet : ∃ members, standing = some (.obj members)
    · obtain ⟨members, rfl⟩ := hmeet
      have hmembers : (mergeMembers path members ms).2 = _ :=
        snd_mergeMembers hs fun m hm => ih m hm _ <| by
          rw [placeOf, if_neg hpath]
          exact joinName_ne_empty path m.1
      rw [funext (placeText_of_ne hpath)] at hmembers
      cases ms with
      | nil => rfl
      | cons m ms => exact hmembers
    · exact snd_mergeValue_of_apart fun members hs => absurd ⟨members, hs⟩ hmeet
  | _ => exact snd_mergeValue_of_apart fun _ _ => rfl

/-- What a payload gives is written with the whole text of its places, unless it has an object
under the empty name and there is one already. -/
theorem snd_mergeMembers_empty (h : Json.Ordered (.obj ms))
    (hunnamed : (Json.obj merged).nestsUnnamed = true → ¬ (Json.obj ms).nestsUnnamed = true) :
    (mergeMembers "" merged ms).2 = (newPlaces merged ms).map joined := by
  have hplaces : (mergeMembers "" merged ms).2 = _ := snd_mergeMembers h.sorted fun m hm => by
    have hget := h.sorted.get?_of_mem (k := m.1) hm
    by_cases hname : m.1 = ""
    · rw [hname] at hget ⊢
      refine snd_mergeValue_of_apart fun members hmembers => ?_
      have hnot := hunnamed (Json.nestsUnnamed_obj.mpr ⟨members, hmembers⟩)
      rw [Json.nestsUnnamed_obj, hget] at hnot
      refine Option.eq_none_iff_forall_ne_some.mpr fun inner hinner => hnot ⟨inner, ?_⟩
      rw [Json.object?_eq_some.mp hinner]
    · exact snd_mergeValue (h.member m.2 hget) _ (by rwa [placeOf, if_pos rfl])
  rw [hplaces]
  refine List.map_congr_left fun names hnames => placeText_empty ?_
  obtain ⟨m, -, inner, -, rfl⟩ := Json.mem_leafNamesOf_iff.mp (List.mem_filter.mp hnames).1
  exact List.cons_ne_nil m.1 inner

end

/-- Names that can be read back from their text. -/
def Plain (names : List String) : Prop :=
  names ≠ [] ∧ ∀ name ∈ names, '.' ∉ name.toList

section
variable {merged : Fields Json} {s : Source} {sources : List Source} {names others : List String}
  {ns : List (List String)}

theorem splitOn_joined (h : Plain names) :
    (joined names).toList.splitOn '.' = names.map String.toList := by
  rw [joined, String.toList_intercalate]
  refine List.splitOn_intercalate '.' (fun l hl => ?_) (by simpa using h.1)
  obtain ⟨name, hname, rfl⟩ := List.mem_map.mp hl
  exact h.2 name hname

theorem joined_inj (h : Plain names) (hothers : Plain others) (heq : joined names = joined others) :
    names = others := by
  have hlists : names.map String.toList = others.map String.toList := by
    rw [← splitOn_joined h, ← splitOn_joined hothers, heq]
  exact List.map_injective_iff.mpr (fun _ _ => String.toList_injective) hlists

theorem mem_map_joined_iff (hns : ∀ others ∈ ns, Plain others) (h : Plain names) :
    joined names ∈ ns.map joined ↔ names ∈ ns := by
  refine ⟨fun hmem => ?_, List.mem_map_of_mem⟩
  obtain ⟨others, hothers, heq⟩ := List.mem_map.mp hmem
  exact joined_inj (hns others hothers) h heq ▸ hothers

theorem plain_of_mem_sourcePlaces (hs : s.payload.Ordered) (hdotless : s.payload.Dotless)
    (h : names ∈ sourcePlaces merged s) : Plain names := by
  obtain ⟨payload, hm, -, hne, hleaf⟩ := (mem_sourcePlaces_iff hs).mp h
  have hpayload := (Source.members?_eq_some.mp hm).2
  exact ⟨hne, hdotless names ((Json.mem_leafNames_iff hs).mpr (hpayload ▸ hleaf))⟩

theorem plain_of_mem_places (hs : ∀ s ∈ sources, s.payload.Ordered)
    (hdotless : ∀ s ∈ sources, s.payload.Dotless) :
    ∀ ns ∈ places merged sources, ∀ names ∈ ns, Plain names := by
  induction sources generalizing merged with
  | nil => exact fun ns hns => absurd hns List.not_mem_nil
  | cons s sources ih =>
    obtain ⟨hhead, hrest⟩ := List.forall_mem_cons.mp hs
    obtain ⟨hdot, hdots⟩ := List.forall_mem_cons.mp hdotless
    exact List.forall_mem_cons.mpr
      ⟨fun names hnames => plain_of_mem_sourcePlaces hhead hdot hnames, ih hrest hdots⟩

/-- The sources with the texts of the places that they give. -/
def attributions (merged : Fields Json) (sources : List Source) : List Attribution :=
  (sources.zip (places merged sources)).map fun e => e.1.attribute (e.2.map joined)

theorem nestsUnnamed_mergeSource (hs : s.payload.Ordered)
    (h : (Json.obj (mergeSource merged s)).nestsUnnamed = true) :
    (Json.obj merged).nestsUnnamed = true ∨ s.nestsUnnamed = true := by
  unfold mergeSource at h
  cases hm : s.members? with
  | none => exact .inl (by rwa [hm] at h)
  | some payload =>
    obtain ⟨hsucceeded, hpayload⟩ := Source.members?_eq_some.mp hm
    rw [hpayload] at hs
    rw [Source.nestsUnnamed, hsucceeded, hpayload, Bool.true_and]
    rw [hm, Json.nestsUnnamed_obj, get?_mergeObjects hs.sorted] at h
    rw [Json.nestsUnnamed_obj, Json.nestsUnnamed_obj]
    rcases mergeAt_cases (Fields.get? "" merged) (Fields.get? "" payload) with
      hnone | ⟨members, _, hstanding, -⟩ | hsame
    · rw [hnone, mergeAt_none_left] at h
      exact .inr h
    · exact .inl ⟨members, hstanding⟩
    · rw [hsame] at h
      exact .inl h

theorem snd_addAll_deep_cons (hs : s.payload.Ordered)
    (hunnamed : (Json.obj merged).nestsUnnamed = true → ¬ s.nestsUnnamed = true) :
    (Merge.deep.addAll merged (s :: sources)).2 =
      s.attribute ((sourcePlaces merged s).map joined) ::
        (Merge.deep.addAll (mergeSource merged s) sources).2 := by
  rw [Merge.addAll_cons, fst_addSource_deep]
  unfold sourcePlaces Merge.addSource
  cases hm : s.members? with
  | none => rfl
  | some payload =>
    obtain ⟨hsucceeded, hpayload⟩ := Source.members?_eq_some.mp hm
    rw [Source.nestsUnnamed, hsucceeded, hpayload, Bool.true_and] at hunnamed
    rw [← snd_mergeMembers_empty (hpayload ▸ hs) hunnamed]
    rfl

/-- Where at most one object comes under the empty name, a deep merge tells each place with all of
its names. -/
theorem snd_addAll_deep (hs : ∀ s ∈ sources, s.payload.Ordered)
    (hunnamed : sources.Pairwise fun s t => ¬ (s.nestsUnnamed = true ∧ t.nestsUnnamed = true))
    (hmerged : (Json.obj merged).nestsUnnamed = true → ∀ s ∈ sources, ¬ s.nestsUnnamed = true) :
    (Merge.deep.addAll merged sources).2 = attributions merged sources := by
  induction sources generalizing merged with
  | nil => rfl
  | cons s sources ih =>
    obtain ⟨hhead, hrest⟩ := List.forall_mem_cons.mp hs
    obtain ⟨hapart, hpairs⟩ := List.pairwise_cons.mp hunnamed
    have hnext : (Json.obj (mergeSource merged s)).nestsUnnamed = true →
        ∀ t ∈ sources, ¬ t.nestsUnnamed = true := by
      intro hnests t ht hnested
      rcases nestsUnnamed_mergeSource hhead hnests with hold | hnew
      · exact hmerged hold t (List.mem_cons_of_mem s ht) hnested
      · exact hapart t ht ⟨hnew, hnested⟩
    rw [snd_addAll_deep_cons hhead fun h => hmerged h s List.mem_cons_self,
      ih hrest hpairs hnext]
    rfl

theorem attributions_append (merged : Fields Json) (before after : List Source) :
    attributions merged (before ++ after) =
      attributions merged before ++ attributions (before.foldl mergeSource merged) after := by
  rw [attributions, places_append, List.zip_append (length_places merged before).symm,
    List.map_append]
  rfl

theorem length_attributions (merged : Fields Json) (sources : List Source) :
    (attributions merged sources).length = sources.length := by
  simp [attributions, length_places]

theorem not_mem_fields_attributions (hs : ∀ s ∈ sources, s.payload.Ordered)
    (hdotless : ∀ s ∈ sources, s.payload.Dotless) (hplain : Plain names)
    (h : ∀ ns ∈ places merged sources, names ∉ ns) :
    ∀ t ∈ attributions merged sources, joined names ∉ t.fields := by
  intro t ht
  obtain ⟨⟨s, ns⟩, hmem, rfl⟩ := List.mem_map.mp ht
  have hns := (List.of_mem_zip hmem).2
  exact mt (mem_map_joined_iff (plain_of_mem_places hs hdotless ns hns) hplain).mp (h ns hns)

/-- Each text is that of a leaf of the source's own payload. -/
theorem forall₂_attributions (hs : ∀ s ∈ sources, s.payload.Ordered) :
    List.Forall₂ (fun s t => ∃ fields, t = s.attribute fields ∧ ∀ text ∈ fields,
      ∃ names v, names ≠ [] ∧ text = joined names ∧ Json.descend? names s.payload = some v ∧
        v.isLeaf = true) sources (attributions merged sources) := by
  induction sources generalizing merged with
  | nil => exact .nil
  | cons s sources ih =>
    obtain ⟨hhead, hrest⟩ := List.forall_mem_cons.mp hs
    refine .cons ⟨_, rfl, fun text htext => ?_⟩ (ih hrest)
    obtain ⟨names, hnames, rfl⟩ := List.mem_map.mp htext
    obtain ⟨payload, hm, -, hne, v, hv, hleaf⟩ := (mem_sourcePlaces_iff hhead).mp hnames
    exact ⟨names, v, hne, rfl, (Source.members?_eq_some.mp hm).2 ▸ hv, hleaf⟩

end

/-- The sources of a deep merge are what its payloads give one after the other. -/
theorem sources_report_deep {a : Aggregation} (hkind : a.kind = .merge) (hdeep : a.merge = .deep)
    (aggregators : Fields Aggregator) (now : Int) (sources : List Source) :
    (a.report aggregators now sources).sources = (Merge.deep.addAll [] sources).2 := by
  unfold report assemble
  rw [hkind, hdeep]
  rfl

/-- Where no name has a point in it, and at most one payload has an object under the empty name, the
text of every leaf is told once, for one source, which has that leaf; and only leaves of its own
payload are told for a source. -/
theorem deep_attribution_exact {a : Aggregation} (hkind : a.kind = .merge) (hdeep : a.merge = .deep)
    (aggregators : Fields Aggregator) (now : Int) {sources : List Source}
    (hs : ∀ s ∈ sources, s.payload.Ordered) (hdotless : ∀ s ∈ sources, s.payload.Dotless)
    (hunnamed : sources.Pairwise fun s t => ¬ (s.nestsUnnamed = true ∧ t.nestsUnnamed = true)) :
    (∀ names v, names ≠ [] →
        Json.descend? names (a.report aggregators now sources).data = some v → v.isLeaf = true →
        ∃ before s after told fields later, sources = before ++ s :: after ∧
          (a.report aggregators now sources).sources = told ++ s.attribute fields :: later ∧
          told.length = before.length ∧ fields.count (joined names) = 1 ∧
          (∀ t ∈ told ++ later, joined names ∉ t.fields) ∧
          s.succeeded = true ∧ Json.descend? names s.payload = some v) ∧
      List.Forall₂ (fun s t => ∃ fields, t = s.attribute fields ∧ ∀ text ∈ fields,
        ∃ names v, names ≠ [] ∧ text = joined names ∧ Json.descend? names s.payload = some v ∧
          v.isLeaf = true) sources (a.report aggregators now sources).sources := by
  have htold : (a.report aggregators now sources).sources = attributions [] sources := by
    rw [sources_report_deep hkind hdeep]
    exact snd_addAll_deep hs hunnamed nofun
  rw [htold, data_report_deep hkind hdeep]
  refine ⟨fun names v hne hv hleaf => ?_, forall₂_attributions hs⟩
  obtain ⟨before, s, after, payload, rfl, hm, hpayload, hmem, hbefore, hafter⟩ :=
    places_of_leaf hs hne hv hleaf
  obtain ⟨hsbefore, hrest⟩ := List.forall_mem_append.mp hs
  obtain ⟨hhead, hsafter⟩ := List.forall_mem_cons.mp hrest
  obtain ⟨hdotbefore, hdotrest⟩ := List.forall_mem_append.mp hdotless
  obtain ⟨hdot, hdotafter⟩ := List.forall_mem_cons.mp hdotrest
  -- The names can be read back from their text, so that it is told where they are and nowhere else.
  have hplain := plain_of_mem_sourcePlaces hhead hdot hmem
  obtain ⟨hsucceeded, hobj⟩ := Source.members?_eq_some.mp hm
  refine ⟨before, s, after, attributions [] before, _, _, rfl, attributions_append [] before _,
    length_attributions [] before, ?_, ?_, hsucceeded, hobj ▸ hpayload⟩
  · refine List.count_eq_one_of_mem (List.Nodup.map_on (fun x hx y hy hxy => ?_)
      (nodup_sourcePlaces hhead)) (List.mem_map_of_mem hmem)
    exact joined_inj (plain_of_mem_sourcePlaces hhead hdot hx)
      (plain_of_mem_sourcePlaces hhead hdot hy) hxy
  · exact List.forall_mem_append.mpr
      ⟨not_mem_fields_attributions hsbefore hdotbefore hplain hbefore,
        not_mem_fields_attributions hsafter hdotafter hplain hafter⟩

/-- An empty object that is filled by a later source, and one object under the empty name. -/
theorem deep_attribution_exact_filled :
    let one : Json := .obj [("", .obj [("a", .null)]), ("b", .obj [("c", .obj [])])]
    let two : Json := .obj [("b", .obj [("c", .obj [("d", .bool true), ("e", .obj [])])])]
    let sources : List Source :=
      [⟨"1", "one", true, some one, none⟩, ⟨"2", "lost", false, none, some "gone"⟩,
        ⟨"3", "two", true, some two, none⟩]
    (∃ before s after told fields later, sources = before ++ s :: after ∧
      (report ⟨.merge, .deep, none, none⟩ [] 0 sources).sources =
        told ++ s.attribute fields :: later ∧
      told.length = before.length ∧ fields.count "b.c.d" = 1 ∧
      (∀ t ∈ told ++ later, "b.c.d" ∉ t.fields) ∧
      s.succeeded = true ∧ Json.descend? ["b", "c", "d"] s.payload = some (.bool true)) ∧
    (report ⟨.merge, .deep, none, none⟩ [] 0 sources).sources =
      [⟨"one", true, [".a", "b.c"]⟩, ⟨"lost", false, []⟩, ⟨"two", true, ["b.c.d", "b.c.e"]⟩] := by
  intro one two sources
  have hs : ∀ s ∈ sources, s.payload.Ordered :=
    List.forall_mem_cons.mpr ⟨Json.ordered_normal one, List.forall_mem_cons.mpr
      ⟨.null, List.forall_mem_singleton.mpr (Json.ordered_normal two)⟩⟩
  have hdotless : ∀ s ∈ sources, s.payload.Dotless := by
    unfold Json.Dotless
    decide +kernel
  have hunnamed :
      sources.Pairwise fun s t => ¬ (s.nestsUnnamed = true ∧ t.nestsUnnamed = true) := by
    decide +kernel
  have hleaf := (deep_attribution_exact (a := ⟨.merge, .deep, none, none⟩) rfl rfl [] 0 hs hdotless
    hunnamed).1 ["b", "c", "d"] (.bool true) (List.cons_ne_nil _ _) rfl rfl
  exact ⟨hleaf, by decide +kernel⟩

/-- Two objects under the empty name: the second one's leaf is told without the name above it, so
that the text of its place is told for no source. -/
theorem deep_attribution_lacks_front :
    let one : Json := .obj [("", .obj [("a", .ofNat 1)])]
    let two : Json := .obj [("", .obj [("b", .ofNat 2)])]
    let sources : List Source :=
      [⟨"1", "one", true, some one, none⟩, ⟨"2", "two", true, some two, none⟩]
    let r := report ⟨.merge, .deep, none, none⟩ [] 0 sources
    (∀ s ∈ sources, s.payload.Ordered ∧ s.payload.Dotless) ∧
      Json.descend? ["", "b"] r.data = some (.ofNat 2) ∧ (Json.ofNat 2).isLeaf = true ∧
      (∀ t ∈ r.sources, joined ["", "b"] ∉ t.fields) ∧
      r.sources = [⟨"one", true, [".a"]⟩, ⟨"two", true, ["b"]⟩] := by
  intro one two sources r
  have hdotless : ∀ s ∈ sources, s.payload.Dotless := by
    unfold Json.Dotless
    decide +kernel
  have hs : ∀ s ∈ sources, s.payload.Ordered :=
    List.forall_mem_cons.mpr ⟨Json.ordered_normal one,
      List.forall_mem_singleton.mpr (Json.ordered_normal two)⟩
  exact ⟨fun s h => ⟨hs s h, hdotless s h⟩, rfl, rfl, by decide +kernel, by decide +kernel⟩

end Aggregation
end Switchboard
