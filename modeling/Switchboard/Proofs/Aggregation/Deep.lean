import Switchboard.Proofs.Aggregation.Sources

/-! A deep merge, name by name: what a merged object has for a name is made of what the two objects
have for it, and a leaf of the merged object is the leaf that stood there or, if there was no room
taken, the one that came. -/
namespace Switchboard.Aggregation

mutual

theorem fst_mergeValue (path other : String) (standing : Option Json) (v : Json) :
    (mergeValue path standing v).1 = (mergeValue other standing v).1 := by
  cases v with
  | obj incoming =>
    cases standing with
    | none => rfl
    | some w =>
      cases w with
      | obj members => exact congrArg Json.obj (fst_mergeMembers path other members incoming)
      | _ => rfl
  | _ => cases standing <;> rfl

theorem fst_mergeMembers (path other : String) (merged : Fields Json) (ms : List (String × Json)) :
    (mergeMembers path merged ms).1 = (mergeMembers other merged ms).1 := by
  cases ms with
  | nil => rfl
  | cons m ms =>
    obtain ⟨k, v⟩ := m
    simp only [mergeMembers]
    rw [fst_mergeValue _ (if other = "" then k else joinName other k)]
    exact fst_mergeMembers path other _ ms

end

/-- The members of an object with those of a later one merged into it. -/
def mergeObjects (standing incoming : Fields Json) : Fields Json :=
  (mergeMembers "" standing incoming).1

/-- What there is for a name after a merge. -/
def mergeAt (standing : Option Json) : Option Json → Option Json
  | none => standing
  | some v => some (mergeValue "" standing v).1

section
variable {standing incoming : Option Json} {v w : Json} {members ms : Fields Json}
  {k : String} {names : List String}

@[simp] theorem mergeAt_none_right : mergeAt standing none = standing := rfl

@[simp] theorem mergeAt_none_left : mergeAt none incoming = incoming := by
  cases incoming with
  | none => rfl
  | some v => cases v <;> rfl

@[simp] theorem mergeAt_objects :
    mergeAt (some (.obj members)) (some (.obj ms)) = some (.obj (mergeObjects members ms)) := rfl

theorem mergeAt_of_standing (h : w.object? = none) : mergeAt (some w) incoming = some w := by
  cases incoming with
  | none => rfl
  | some v =>
    cases v with
    | obj ms =>
      cases w with
      | obj members => cases h
      | _ => rfl
    | _ => rfl

theorem mergeAt_of_incoming (h : v.object? = none) : mergeAt (some w) (some v) = some w := by
  cases v with
  | obj ms => cases h
  | _ => rfl

/-- Two values meet as objects, or the one that comes first stays as it is. -/
theorem mergeAt_cases (standing incoming : Option Json) :
    standing = none ∨ (∃ members ms, standing = some (.obj members) ∧ incoming = some (.obj ms)) ∨
      mergeAt standing incoming = standing := by
  cases standing with
  | none => exact .inl rfl
  | some w =>
    right
    cases hw : w.object? with
    | none => exact .inr (mergeAt_of_standing hw)
    | some members =>
      cases incoming with
      | none => exact .inr rfl
      | some v =>
        cases hv : v.object? with
        | none => exact .inr (mergeAt_of_incoming hv)
        | some ms =>
          exact .inl ⟨members, ms, congrArg some (Json.object?_eq_some.mp hw),
            congrArg some (Json.object?_eq_some.mp hv)⟩

theorem sorted_mergeMembers (path : String) (hs : Fields.Sorted members) (ms : Fields Json) :
    Fields.Sorted (mergeMembers path members ms).1 := by
  induction ms generalizing members with
  | nil => exact hs
  | cons m ms ih => exact ih (hs.insert _ _)

/-- A merge goes name by name. -/
theorem get?_mergeObjects (hms : Fields.Sorted ms) (k : String) :
    Fields.get? k (mergeObjects members ms) =
      mergeAt (Fields.get? k members) (Fields.get? k ms) := by
  induction ms generalizing members with
  | nil => rfl
  | cons m ms ih =>
    obtain ⟨l, v⟩ := m
    obtain ⟨hlt, hms⟩ := List.pairwise_cons.mp hms
    have hstep : mergeObjects members ((l, v) :: ms) =
        mergeObjects (Fields.insert l (mergeValue "" (Fields.get? l members) v).1 members) ms := by
      simp only [mergeObjects, mergeMembers]
      rw [fst_mergeValue _ ""]
    rw [hstep, ih hms]
    by_cases hk : k = l
    · subst hk
      rw [Fields.get?_insert_self, Fields.get?_eq_none_of_lt hlt, Fields.get?, if_pos rfl]
      rfl
    · rw [Fields.get?_insert_of_ne hk, Fields.get?, if_neg hk]

/-- Names lead to where nothing is yet, and nothing that is no object stands on the way. -/
def isAbsent : List String → Option Json → Bool
  | _, none => true
  | k :: names, some (.obj members) => isAbsent names (Fields.get? k members)
  | _, some _ => false

@[simp] theorem isAbsent_none : isAbsent names none = true := by
  cases names <;> rfl

theorem descend?_of_isAbsent (h : isAbsent names standing = true) :
    standing.bind (Json.descend? names) = none := by
  induction names generalizing standing with
  | nil =>
    cases standing with
    | none => rfl
    | some w => cases w <;> cases h
  | cons k names ih =>
    cases standing with
    | none => rfl
    | some w =>
      cases w with
      | obj members => exact ih h
      | _ => cases h

/-- Below a name a merge goes on with what the objects have for it. -/
theorem descend?_mergeAt_objects (hms : Fields.Sorted ms) :
    (mergeAt (some (.obj members)) (some (.obj ms))).bind (Json.descend? (k :: names)) =
      (mergeAt (Fields.get? k members) (Fields.get? k ms)).bind (Json.descend? names) := by
  rw [← get?_mergeObjects hms]
  rfl

theorem isAbsent_mergeAt_objects (hms : Fields.Sorted ms) :
    isAbsent (k :: names) (mergeAt (some (.obj members)) (some (.obj ms))) =
      isAbsent names (mergeAt (Fields.get? k members) (Fields.get? k ms)) := by
  rw [← get?_mergeObjects hms]
  rfl

/-- Where there is room, what comes is put as it is. -/
theorem descend?_mergeAt_of_isAbsent (hin : ∀ v ∈ incoming, v.Ordered)
    (h : isAbsent names standing = true) (hv : incoming.bind (Json.descend? names) = some v) :
    (mergeAt standing incoming).bind (Json.descend? names) = some v := by
  induction names generalizing standing incoming with
  | nil =>
    cases standing with
    | none => rwa [mergeAt_none_left]
    | some w => cases w <;> cases h
  | cons k names ih =>
    cases standing with
    | none => rwa [mergeAt_none_left]
    | some w =>
      cases w with
      | obj members =>
        cases incoming with
        | none => cases hv
        | some u =>
          cases u with
          | obj ms =>
            have hms : Json.Ordered (.obj ms) := hin _ rfl
            rw [descend?_mergeAt_objects hms.sorted]
            exact ih hms.member h hv
          | _ => cases hv
      | _ => cases h

/-- What stands is found after a merge, and it is unchanged if it is no object. -/
theorem descend?_mergeAt_of_standing (hin : ∀ v ∈ incoming, v.Ordered)
    (h : standing.bind (Json.descend? names) = some w) :
    ∃ v, (mergeAt standing incoming).bind (Json.descend? names) = some v ∧
      (w.object? = none → v = w) := by
  induction names generalizing standing incoming with
  | nil =>
    cases standing with
    | none => cases h
    | some u =>
      cases h
      cases hw : w.object? with
      | none => exact ⟨w, by rw [mergeAt_of_standing hw]; rfl, fun _ => rfl⟩
      | some members =>
        cases incoming with
        | none => exact ⟨w, rfl, nofun⟩
        | some v => exact ⟨_, rfl, nofun⟩
  | cons k names ih =>
    rcases mergeAt_cases standing incoming with rfl | ⟨members, ms, rfl, rfl⟩ | hsame
    · cases h
    · have hms : Json.Ordered (.obj ms) := hin _ rfl
      rw [descend?_mergeAt_objects hms.sorted]
      exact ih hms.member h
    · exact ⟨w, by rwa [hsame], fun _ => rfl⟩

/-- An object that has got no members from a merge had none. -/
theorem eq_nil_of_mergeObjects (hms : Fields.Sorted ms) (h : mergeObjects members ms = []) :
    members = [] := by
  cases members with
  | nil => rfl
  | cons m members =>
    have hk : Fields.get? m.1 (mergeObjects (m :: members) ms) = _ := get?_mergeObjects hms m.1
    rw [h, Fields.get?, Fields.get?, if_pos rfl] at hk
    cases hget : Fields.get? m.1 ms with
    | none => rw [hget] at hk; cases hk
    | some v => rw [hget] at hk; cases hk

/-- A leaf that is found after a merge was there before, or it has come where there was room. -/
theorem leaf_of_mergeAt (hin : ∀ v ∈ incoming, v.Ordered)
    (h : (mergeAt standing incoming).bind (Json.descend? names) = some w)
    (hleaf : w.isLeaf = true) :
    standing.bind (Json.descend? names) = some w ∨
      isAbsent names standing = true ∧ incoming.bind (Json.descend? names) = some w := by
  induction names generalizing standing incoming with
  | nil =>
    rcases mergeAt_cases standing incoming with rfl | ⟨members, ms, rfl, rfl⟩ | hsame
    · rw [mergeAt_none_left] at h
      exact .inr ⟨rfl, h⟩
    · have hms : Json.Ordered (.obj ms) := hin _ rfl
      obtain rfl : Json.obj (mergeObjects members ms) = w := Option.some.inj h
      -- An object that is a leaf has no members, and then none were there before.
      cases hnil : mergeObjects members ms with
      | nil =>
        rw [eq_nil_of_mergeObjects hms.sorted hnil]
        exact .inl rfl
      | cons m rest =>
        rw [hnil] at hleaf
        cases hleaf
    · rw [hsame] at h
      exact .inl h
  | cons k names ih =>
    rcases mergeAt_cases standing incoming with rfl | ⟨members, ms, rfl, rfl⟩ | hsame
    · rw [mergeAt_none_left] at h
      exact .inr ⟨rfl, h⟩
    · have hms : Json.Ordered (.obj ms) := hin _ rfl
      rw [descend?_mergeAt_objects hms.sorted] at h
      exact ih hms.member h
    · rw [hsame] at h
      exact .inl h

/-- Where there is room after a merge, there was room before. -/
theorem isAbsent_of_mergeAt (hin : ∀ v ∈ incoming, v.Ordered)
    (h : isAbsent names (mergeAt standing incoming) = true) : isAbsent names standing = true := by
  induction names generalizing standing incoming with
  | nil =>
    rcases mergeAt_cases standing incoming with rfl | ⟨members, ms, rfl, rfl⟩ | hsame
    · rfl
    · cases h
    · rwa [hsame] at h
  | cons k names ih =>
    rcases mergeAt_cases standing incoming with rfl | ⟨members, ms, rfl, rfl⟩ | hsame
    · rfl
    · have hms : Json.Ordered (.obj ms) := hin _ rfl
      rw [isAbsent_mergeAt_objects hms.sorted] at h
      exact ih hms.member h
    · rwa [hsame] at h

end

/-- The members merged so far, with those of one source. -/
def mergeSource (merged : Fields Json) (s : Source) : Fields Json :=
  match s.members? with
  | some payload => mergeObjects merged payload
  | none => merged

theorem fst_addSource_deep (merged : Fields Json) (s : Source) :
    (Merge.deep.addSource merged s).1 = mergeSource merged s := by
  unfold Merge.addSource mergeSource
  cases s.members? <;> rfl

theorem fst_addAll_deep (merged : Fields Json) (sources : List Source) :
    (Merge.deep.addAll merged sources).1 = sources.foldl mergeSource merged := by
  induction sources generalizing merged with
  | nil => rfl
  | cons s sources ih => rw [Merge.addAll_cons, fst_addSource_deep, ih, List.foldl_cons]

section
variable {merged : Fields Json} {s : Source} {sources : List Source} {v w : Json}
  {names : List String}

theorem mergeSource_eq : some (Json.obj (mergeSource merged s)) =
    mergeAt (some (.obj merged)) (s.members?.map .obj) := by
  unfold mergeSource
  cases s.members? <;> rfl

theorem ordered_members (h : s.payload.Ordered) : ∀ v ∈ s.members?.map Json.obj, v.Ordered := by
  intro v hv
  obtain ⟨members, hm, rfl⟩ := Option.map_eq_some_iff.mp hv
  exact Source.ordered_of_members? h hm

theorem descend?_mergeSource_of_standing (hs : s.payload.Ordered)
    (h : Json.descend? names (.obj merged) = some w) :
    ∃ v, Json.descend? names (.obj (mergeSource merged s)) = some v ∧
      (w.object? = none → v = w) := by
  have hstanding : (some (Json.obj merged)).bind (Json.descend? names) = some w := h
  have hnext := descend?_mergeAt_of_standing (ordered_members hs) hstanding
  rwa [← mergeSource_eq] at hnext

/-- What is there stays, and it is unchanged if it is no object. -/
theorem descend?_foldl_of_standing (hs : ∀ s ∈ sources, s.payload.Ordered)
    (h : Json.descend? names (.obj merged) = some w) :
    ∃ v, Json.descend? names (.obj (sources.foldl mergeSource merged)) = some v ∧
      (w.object? = none → v = w) := by
  induction sources generalizing merged w with
  | nil => exact ⟨w, h, fun _ => rfl⟩
  | cons s sources ih =>
    obtain ⟨hhead, hrest⟩ := List.forall_mem_cons.mp hs
    obtain ⟨u, hu, hsame⟩ := descend?_mergeSource_of_standing hhead h
    obtain ⟨v, hv, hkept⟩ := ih hrest hu
    refine ⟨v, hv, fun hw => ?_⟩
    have huw : u = w := hsame hw
    rw [hkept (huw ▸ hw), huw]

/-- Room that is left at the end was there at the beginning. -/
theorem isAbsent_of_foldl (hs : ∀ s ∈ sources, s.payload.Ordered)
    (h : isAbsent names (some (.obj (sources.foldl mergeSource merged))) = true) :
    isAbsent names (some (.obj merged)) = true := by
  induction sources generalizing merged with
  | nil => exact h
  | cons s sources ih =>
    obtain ⟨hhead, hrest⟩ := List.forall_mem_cons.mp hs
    have hnext := ih hrest h
    rw [mergeSource_eq] at hnext
    exact isAbsent_of_mergeAt (ordered_members hhead) hnext

/-- A leaf at the end was there at the beginning, or it is a leaf of some source and there was room
for it after the sources before. -/
theorem leaf_of_foldl (hs : ∀ s ∈ sources, s.payload.Ordered)
    (h : Json.descend? names (.obj (sources.foldl mergeSource merged)) = some v)
    (hleaf : v.isLeaf = true) :
    Json.descend? names (.obj merged) = some v ∨
      ∃ before s after members, sources = before ++ s :: after ∧ s.members? = some members ∧
        isAbsent names (some (.obj (before.foldl mergeSource merged))) = true ∧
        Json.descend? names (.obj members) = some v := by
  induction sources generalizing merged with
  | nil => exact .inl h
  | cons s sources ih =>
    obtain ⟨hhead, hrest⟩ := List.forall_mem_cons.mp hs
    rcases ih hrest h with hnext | ⟨before, t, after, members, rfl, hmembers, hroom, hv⟩
    · have hmerged : (mergeAt (some (.obj merged)) (s.members?.map .obj)).bind
          (Json.descend? names) = some v := by
        rw [← mergeSource_eq]
        exact hnext
      rcases leaf_of_mergeAt (ordered_members hhead) hmerged hleaf with hold | ⟨hroom, hnew⟩
      · exact .inl hold
      · obtain ⟨_, hobj, hv⟩ := Option.bind_eq_some_iff.mp hnew
        obtain ⟨members, hmembers, rfl⟩ := Option.map_eq_some_iff.mp hobj
        exact .inr ⟨[], s, sources, members, rfl, hmembers, hroom, hv⟩
    · exact .inr ⟨s :: before, t, after, members, rfl, hmembers, hroom, hv⟩

end
end Aggregation
end Switchboard
