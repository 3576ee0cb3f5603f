import Mathlib.Data.List.TakeWhile
import Switchboard.Proofs.Fields
import Switchboard.Proofs.Text.Percent
import Switchboard.Request.Query

/-! Queries and their texts: what is written for a query is read back as that query. The values of a
name are followed through both directions; a query is told from another one by them. -/
namespace Switchboard

namespace Query

/-- The values of a name, none for a name that is not there. -/
def values (q : Query) (k : String) : List String := (Fields.get? k q).getD []

/-- A query as requests have it: each name once, in order, and at least one value for it. -/
structure IsBuilt (q : Query) : Prop where
  sorted : Fields.Sorted q
  filled : ∀ e ∈ q, e.2 ≠ []

/-- The values of a name among entries. -/
def valuesAmong (k : String) (entries : List (String × String)) : List String :=
  (entries.filter fun e => e.1 = k).map (·.2)

theorem valuesAmong_append (k : String) (es fs : List (String × String)) :
    valuesAmong k (es ++ fs) = valuesAmong k es ++ valuesAmong k fs := by
  simp [valuesAmong]

theorem values_add (q : Query) (k v l : String) :
    (q.add k v).values l = q.values l ++ if k = l then [v] else [] := by
  unfold values add
  by_cases h : k = l
  · simp [h]
  · simp [h, Ne.symm h]

/-- Entries that are added go behind the values that their name has. -/
theorem values_addAll (q : Query) (entries : List (String × String)) (k : String) :
    (q.addAll entries).values k = q.values k ++ valuesAmong k entries := by
  unfold addAll
  induction entries generalizing q with
  | nil => simp [valuesAmong]
  | cons e entries ih =>
    rw [List.foldl_cons, ih, values_add, List.append_assoc]
    by_cases h : e.1 = k <;> simp [valuesAmong, h]

namespace IsBuilt
variable {q r : Query}

theorem nil : IsBuilt [] := ⟨.nil, nofun⟩

theorem add (h : q.IsBuilt) (k v : String) : (q.add k v).IsBuilt := by
  refine ⟨h.sorted.insert k _, fun e he => ?_⟩
  rcases Fields.mem_of_mem_insert he with rfl | he
  · simp
  · exact h.filled e he

theorem addAll (h : q.IsBuilt) (entries : List (String × String)) : (q.addAll entries).IsBuilt := by
  unfold Query.addAll
  induction entries generalizing q with
  | nil => exact h
  | cons e entries ih => exact ih (h.add e.1 e.2)

theorem get?_eq (h : q.IsBuilt) (k : String) :
    Fields.get? k q = if q.values k = [] then none else some (q.values k) := by
  unfold values
  cases hk : Fields.get? k q with
  | none => rfl
  | some vs =>
    have hne : vs ≠ [] := h.filled (k, vs) (Fields.mem_of_get? hk)
    simp [hne]

theorem ext (hq : q.IsBuilt) (hr : r.IsBuilt) (h : ∀ k, q.values k = r.values k) : q = r := by
  refine hq.sorted.ext hr.sorted fun k => ?_
  rw [hq.get?_eq, hr.get?_eq, h]

end IsBuilt

/-- The names of a query with one value each. -/
def entries (q : Query) : List (String × String) := q.flatMap fun e => e.2.map fun v => (e.1, v)

theorem valuesAmong_entries_nil {q : Query} {k : String} (h : ∀ e ∈ q, e.1 ≠ k) :
    valuesAmong k (entries q) = [] := by
  simp only [valuesAmong, entries, List.map_eq_nil_iff, List.filter_eq_nil_iff, List.mem_flatMap,
    List.mem_map, decide_eq_true_eq]
  rintro _ ⟨e, he, v, -, rfl⟩
  exact h e he

theorem valuesAmong_entries {q : Query} (hs : Fields.Sorted q) (k : String) :
    valuesAmong k (entries q) = q.values k := by
  induction q with
  | nil => rfl
  | cons e q ih =>
    obtain ⟨l, vs⟩ := e
    obtain ⟨hlt, hs⟩ := List.pairwise_cons.mp hs
    have hcons : entries ((l, vs) :: q) = (vs.map fun v => (l, v)) ++ entries q := rfl
    rw [hcons, valuesAmong_append]
    by_cases h : k = l
    · subst h
      have hrest : ∀ e ∈ q, e.1 ≠ k := fun e he heq => String.lt_irrefl k (heq ▸ hlt e he)
      rw [valuesAmong_entries_nil hrest, List.append_nil]
      simp [valuesAmong, values, Fields.get?, List.filter_map, Function.comp_def]
    · rw [ih hs]
      simp [valuesAmong, values, Fields.get?, h, Ne.symm h, List.filter_map, Function.comp_def]

theorem splitAt_eq_splitOn (sep : Char) (s : List Char) : splitAt sep s = s.splitOn sep := by
  induction s with
  | nil => rfl
  | cons c s ih =>
    rw [splitAt, ih, List.splitOn_cons_eq_if_modifyHead]
    cases h : s.splitOn sep with
    | nil => exact absurd h (List.splitOn_ne_nil sep s)
    | cons part parts => by_cases hc : c = sep <;> simp [hc]

theorem not_mem_intercalate {c sep : Char} (hsep : c ≠ sep) {parts : List (List Char)}
    (h : ∀ part ∈ parts, c ∉ part) : c ∉ [sep].intercalate parts := by
  induction parts with
  | nil => exact List.not_mem_nil
  | cons part parts ih =>
    obtain ⟨hpart, hparts⟩ := List.forall_mem_cons.mp h
    cases parts with
    | nil => simpa using hpart
    | cons next parts =>
      rw [List.intercalate_cons_cons]
      simp [hpart, hsep, ih hparts]

/-- Coded names and values hold none of the characters that queries are made of. -/
theorem not_mem_encodePair {c : Char} (hc : Text.isUnreserved c = false) (hpercent : c ≠ '%')
    (hequals : c ≠ '=') (k v : String) : c ∉ encodePair k v := by
  simp [encodePair, Text.not_mem_percentEncode hc hpercent, hequals]

theorem pair?_encodePair (k v : String) : pair? (encodePair k v) = some (k, v) := by
  have hname : ∀ c ∈ Text.percentEncode k.toList, (decide (c ≠ '=')) = true := by
    intro c hc
    refine decide_eq_true fun heq => ?_
    exact Text.not_mem_percentEncode (by decide) (by decide) k.toList (heq ▸ hc)
  have htake : (encodePair k v).takeWhile (· ≠ '=') = Text.percentEncode k.toList := by
    rw [encodePair, List.takeWhile_append_of_pos hname]
    simp
  have hdrop : (encodePair k v).dropWhile (· ≠ '=') = '=' :: Text.percentEncode v.toList := by
    rw [encodePair, List.dropWhile_append_of_pos hname]
    simp
  have hne : encodePair k v ≠ [] := by simp [encodePair]
  rw [pair?, if_neg hne, htake, hdrop]
  simp [Text.percentDecode_percentEncode]

theorem encode_eq (q : Query) :
    q.encode.toList = ['&'].intercalate (q.entries.map fun e => encodePair e.1 e.2) := by
  rw [encode, String.toList_ofList, entries, List.map_flatMap]
  simp [Function.comp_def]

theorem pairs_encode (q : Query) : pairs q.encode = q.entries := by
  have hparts {c : Char} (hc : Text.isUnreserved c = false) (hpercent : c ≠ '%')
      (hequals : c ≠ '=') : ∀ part ∈ q.entries.map fun e => encodePair e.1 e.2, c ∉ part := by
    intro part hpart
    obtain ⟨e, -, rfl⟩ := List.mem_map.mp hpart
    exact not_mem_encodePair hc hpercent hequals e.1 e.2
  have hmark : '?' ∉ q.encode.toList := by
    rw [encode_eq]
    exact not_mem_intercalate (by decide) (hparts (by decide) (by decide) (by decide))
  have hfront : q.encode.toList.dropWhile (· = '?') = q.encode.toList := by
    refine List.dropWhile_eq_self_iff.mpr fun hlength heq => ?_
    exact hmark (of_decide_eq_true heq ▸ List.getElem_mem hlength)
  rw [pairs, hfront, encode_eq, splitAt_eq_splitOn]
  by_cases hnil : q.entries = []
  · rw [hnil]
    rfl
  · have hread : (pair? ∘ fun e => encodePair e.1 e.2) = some :=
      funext fun e => pair?_encodePair e.1 e.2
    rw [List.splitOn_intercalate '&' (hparts (by decide) (by decide) (by decide)) (by simp [hnil]),
      List.filterMap_map, hread, List.filterMap_some]

theorem isBuilt_parse (s : String) : (parse s).IsBuilt := IsBuilt.nil.addAll (pairs s)

/-- A query is read back from its text: each name with its values, in their order, whatever
characters they are made of. -/
theorem parse_encode {q : Query} (h : q.IsBuilt) : parse q.encode = q := by
  refine (isBuilt_parse q.encode).ext h fun k => ?_
  rw [parse, pairs_encode, values_addAll, valuesAmong_entries h.sorted]
  rfl

/-- Nothing for a name, no name for a value, and the characters that queries are made of. -/
theorem parse_encode_separators :
    IsBuilt [("", ["?", ""]), ("&=", ["%26", "a+ b"]), ("é", ["#"])] ∧
      parse (encode [("", ["?", ""]), ("&=", ["%26", "a+ b"]), ("é", ["#"])]) =
        [("", ["?", ""]), ("&=", ["%26", "a+ b"]), ("é", ["#"])] := by
  have h : IsBuilt [("", ["?", ""]), ("&=", ["%26", "a+ b"]), ("é", ["#"])] := by
    refine ⟨?_, by decide⟩
    unfold Fields.Sorted
    decide
  exact ⟨h, parse_encode h⟩

end Query
end Switchboard
