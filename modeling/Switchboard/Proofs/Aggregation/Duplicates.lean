import Mathlib.Data.List.Induction
import Mathlib.Data.List.Nodup
import Switchboard.Aggregation.Report

/-! Dropping duplicates. Items are compared by the text of their value at a path: the first item with
a text stays, as does every item that has no value there. What has been seen when an item comes up
are the texts of all items before it, whether they were kept or not. -/
namespace Switchboard.Aggregation

/-- The text that an item is compared by. -/
def keyAt (p : Path) (v : Json) : Option String := (Path.get? p v).map Json.text

/-- The texts of the items that have one. -/
def keysAt (p : Path) (items : List Json) : List String := items.filterMap (keyAt p)

/-- The item has no text, or none of those that were seen. -/
def isNew (p : Path) (seen : List String) (v : Json) : Bool := (keyAt p v).all fun t => t ∉ seen

section
variable {p : Path} {seen others : List String} {v : Json} {items xs ys : List Json} {t : String}

@[simp] theorem keysAt_nil : keysAt p [] = [] := rfl

@[simp] theorem keysAt_cons : keysAt p (v :: items) = (keyAt p v).toList ++ keysAt p items := by
  cases h : keyAt p v <;> simp [keysAt, h]

@[simp] theorem isNew_iff : isNew p seen v = true ↔ ∀ t, keyAt p v = some t → t ∉ seen := by
  cases h : keyAt p v <;> simp [isNew, h]

theorem isNew_congr (h : ∀ t, t ∈ seen ↔ t ∈ others) : isNew p seen v = isNew p others v := by
  simp [isNew, h]

@[simp] theorem deduplicateAfter_nil : deduplicateAfter p seen [] = [] := rfl

theorem deduplicateAfter_cons : deduplicateAfter p seen (v :: items) =
    if isNew p seen v then v :: deduplicateAfter p ((keyAt p v).toList ++ seen) items
    else deduplicateAfter p seen items := by
  rw [deduplicateAfter]
  cases hv : Path.get? p v with
  | none => simp [isNew, keyAt, hv]
  | some w => by_cases hw : w.text ∈ seen <;> simp [isNew, keyAt, hv, hw]

/-- Texts are seen or not, in whatever order and however often. -/
theorem deduplicateAfter_congr (h : ∀ t, t ∈ seen ↔ t ∈ others) :
    deduplicateAfter p seen items = deduplicateAfter p others items := by
  induction items generalizing seen others with
  | nil => rfl
  | cons v items ih =>
    have hnext : ∀ t, t ∈ (keyAt p v).toList ++ seen ↔ t ∈ (keyAt p v).toList ++ others := by
      simp [h]
    rw [deduplicateAfter_cons, deduplicateAfter_cons, isNew_congr h, ih h, ih hnext]

/-- After some items the texts of all of them have been seen. -/
theorem deduplicateAfter_append : deduplicateAfter p seen (xs ++ ys) =
    deduplicateAfter p seen xs ++ deduplicateAfter p (keysAt p xs ++ seen) ys := by
  induction xs generalizing seen with
  | nil => rfl
  | cons v xs ih =>
    rw [List.cons_append, deduplicateAfter_cons, deduplicateAfter_cons]
    by_cases hv : isNew p seen v = true
    · rw [if_pos hv, if_pos hv, ih, List.cons_append]
      congr 2
      apply deduplicateAfter_congr
      simp [or_left_comm]
    · rw [if_neg hv, if_neg hv, ih]
      congr 1
      -- The text of an item that is dropped was seen before.
      obtain ⟨t, ht, hseen⟩ : ∃ t, keyAt p v = some t ∧ t ∈ seen := by simpa using hv
      apply deduplicateAfter_congr
      intro s
      simp only [keysAt_cons, ht, Option.toList_some, List.mem_append, List.mem_singleton]
      grind

theorem mem_keysAt_deduplicateAfter : t ∈ keysAt p (deduplicateAfter p seen items) ↔
    t ∈ keysAt p items ∧ t ∉ seen := by
  induction items generalizing seen with
  | nil => simp
  | cons v items ih =>
    rw [deduplicateAfter_cons]
    by_cases hv : isNew p seen v = true
    · rw [if_pos hv, keysAt_cons, List.mem_append, ih]
      have hnew := isNew_iff.mp hv t
      simp only [keysAt_cons, List.mem_append, Option.mem_toList]
      grind
    · rw [if_neg hv, ih]
      obtain ⟨s, hs, hseen⟩ : ∃ s, keyAt p v = some s ∧ s ∈ seen := by simpa using hv
      simp only [keysAt_cons, hs, Option.toList_some, List.mem_append, List.mem_singleton]
      grind

theorem nodup_keysAt_deduplicateAfter : (keysAt p (deduplicateAfter p seen items)).Nodup := by
  induction items generalizing seen with
  | nil => exact List.nodup_nil
  | cons v items ih =>
    rw [deduplicateAfter_cons]
    by_cases hv : isNew p seen v = true
    · rw [if_pos hv, keysAt_cons]
      cases hk : keyAt p v with
      | none => exact ih
      | some t =>
        refine List.nodup_cons.mpr ⟨fun hmem => ?_, ih⟩
        simpa using mem_keysAt_deduplicateAfter.mp hmem
    · rw [if_neg hv]
      exact ih

/-- Items with different texts that were not seen all stay. -/
theorem deduplicateAfter_of_nodup (hnodup : (keysAt p items).Nodup)
    (h : ∀ t ∈ keysAt p items, t ∉ seen) : deduplicateAfter p seen items = items := by
  induction items generalizing seen with
  | nil => rfl
  | cons v items ih =>
    rw [keysAt_cons] at hnodup h
    obtain ⟨hv, hitems⟩ := List.forall_mem_append.mp h
    obtain ⟨-, hrest, hapart⟩ := List.nodup_append.mp hnodup
    have hnew : isNew p seen v = true := isNew_iff.mpr fun t ht => hv t (by simp [ht])
    have hnext : ∀ t ∈ keysAt p items, t ∉ (keyAt p v).toList ++ seen := by
      intro t ht hmem
      rcases List.mem_append.mp hmem with hmem | hmem
      · exact hapart t hmem t ht rfl
      · exact hitems t ht hmem
    rw [deduplicateAfter_cons, if_pos hnew, ih hrest hnext]

/-- The next item stays if its text is none of those before it. -/
theorem deduplicateAfter_concat : deduplicateAfter p [] (items ++ [v]) =
    deduplicateAfter p [] items ++ if isNew p (keysAt p items) v then [v] else [] := by
  rw [deduplicateAfter_append, List.append_nil, deduplicateAfter_cons, deduplicateAfter_nil,
    deduplicateAfter_nil]

/-- An item at a place stays if its text is none of those in front of that place. -/
theorem deduplicateAfter_eq_filter (items : List Json) : deduplicateAfter p [] items =
    (items.zipIdx.filter fun e => isNew p (keysAt p (items.take e.2)) e.1).map (·.1) := by
  induction items using List.reverseRecOn with
  | nil => rfl
  | append_singleton items v ih =>
    rw [deduplicateAfter_concat, ih, List.zipIdx_append, List.filter_append, List.map_append]
    congr 1
    · congr 1
      apply List.filter_congr
      rintro ⟨w, i⟩ hw
      have hi : i < items.length := by simpa using (List.mem_zipIdx hw).2.1
      rw [List.take_append_of_le_length (Nat.le_of_lt hi)]
    · by_cases hv : isNew p (keysAt p items) v = true <;> simp [hv]

end

/-- What stays are the items that have no value at the path and those whose value has another text
than that of every item before. So nothing is dropped a second time, items that come later can be
compared with what was kept of the earlier ones, each text is kept once and none is lost. -/
theorem deduplicate_keeps_first (items : List Json) (field : String) :
    let p := Path.parse field
    deduplicate items field =
        (items.zipIdx.filter fun e => isNew p (keysAt p (items.take e.2)) e.1).map (·.1) ∧
      deduplicate (deduplicate items field) field = deduplicate items field ∧
      (∀ later, deduplicate (items ++ later) field =
        deduplicate (deduplicate items field ++ later) field) ∧
      (keysAt p (deduplicate items field)).Nodup ∧
      ∀ t, t ∈ keysAt p (deduplicate items field) ↔ t ∈ keysAt p items := by
  intro p
  have hmem : ∀ t, t ∈ keysAt p (deduplicate items field) ↔ t ∈ keysAt p items := fun t => by
    simp [deduplicate, mem_keysAt_deduplicateAfter, p]
  have hnodup : (keysAt p (deduplicate items field)).Nodup := nodup_keysAt_deduplicateAfter
  have htwice : deduplicate (deduplicate items field) field = deduplicate items field :=
    deduplicateAfter_of_nodup hnodup (by simp)
  refine ⟨deduplicateAfter_eq_filter items, htwice, fun later => ?_, hnodup, hmem⟩
  calc deduplicate (items ++ later) field
      = deduplicate items field ++ deduplicateAfter p (keysAt p items ++ []) later :=
        deduplicateAfter_append
    _ = deduplicate (deduplicate items field) field ++
          deduplicateAfter p (keysAt p (deduplicate items field) ++ []) later := by
        rw [htwice]
        congr 1
        apply deduplicateAfter_congr
        simp [hmem]
    _ = deduplicate (deduplicate items field ++ later) field := deduplicateAfter_append.symm

/-- A number and a text are told apart, also where they read the same. -/
example :
    let item (id : Json) (b : Bool) : Json := .obj [("id", id), ("v", .bool b)]
    deduplicate [item (.ofNat 1) true, item (.ofNat 1) false, .null, item (.str "1") false] "id" =
      [item (.ofNat 1) true, .null, item (.str "1") false] := by
  rfl

end Switchboard.Aggregation
