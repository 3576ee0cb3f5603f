import Switchboard.Execution.Key
import Switchboard.Proofs.Json.Same
import Switchboard.Proofs.Json.Text
import Switchboard.Proofs.Text.Bytes

/-! What is hashed into a key tells its parts: the mapping, the method in upper case, the query and
the body. The mapping may hold any character, so the parts are found from the end. -/
namespace Switchboard

/-- What follows the last separator tells where it stands. -/
theorem eq_of_append_separator {α : Type} {z : α} {x y s t : List α} (hs : z ∉ s) (ht : z ∉ t)
    (h : x ++ z :: s = y ++ z :: t) : x = y ∧ s = t := by
  have hnil {a s t : List α} (hs : z ∉ s) (h : z :: s = a ++ z :: t) : a = [] := by
    cases a with
    | nil => rfl
    | cons b a =>
      refine absurd ?_ hs
      rw [(List.cons.inj h).2]
      exact List.mem_append_right a List.mem_cons_self
  have hxy : x = y := by
    rcases List.append_eq_append_iff.mp h with ⟨a, rfl, ha⟩ | ⟨a, rfl, ha⟩
    · rw [hnil hs ha, List.append_nil]
    · rw [hnil ht ha, List.append_nil]
  subst hxy
  exact ⟨rfl, (List.cons.inj (List.append_cancel_left h)).2⟩

theorem zero_not_mem_bytes_chars (v : Json) : 0 ∉ Text.bytes v.chars := fun h =>
  absurd (v.written_chars '\x00' (Text.zero_mem_bytes h)) (by decide)

theorem zero_not_mem_bytes_upper {method : String} (h : '\x00' ∉ method.toList) :
    0 ∉ Text.bytes (Text.upper method.toList) := fun hzero =>
  Text.zero_not_mem_upper h (Text.zero_mem_bytes hzero)

/-- The body comes before the query in the order of names. -/
theorem ofList_body_query (body query : Json) :
    Json.ofList [("body", body), ("query", query)] =
      .obj [("body", body), ("query", query)] := by
  have hlt : ¬"query" < "body" := by decide +kernel
  simp [Json.ofList, Fields.ofList, Fields.insert, hlt]

section Calls
variable {id id' method method' : String} {query query' : Json} {body body' : Option Json}
variable (hmethod : '\x00' ∉ method.toList) (hmethod' : '\x00' ∉ method'.toList)
include hmethod hmethod'

/-- The bytes tell the mapping, the method, the query and the body. -/
theorem parts_of_keyBytes (h : keyBytes id method query body = keyBytes id' method' query' body') :
    id = id' ∧ Text.upperString method = Text.upperString method' ∧ query = query' ∧
      body.getD .null = body'.getD .null := by
  unfold keyBytes at h
  obtain ⟨hfront, htext⟩ := eq_of_append_separator (zero_not_mem_bytes_chars _)
    (zero_not_mem_bytes_chars _) h
  obtain ⟨hid, hupper⟩ := eq_of_append_separator (zero_not_mem_bytes_upper hmethod)
    (zero_not_mem_bytes_upper hmethod') hfront
  have hvalue := Json.chars_injective (Text.bytes_injective htext)
  rw [ofList_body_query, ofList_body_query] at hvalue
  simp only [Json.obj.injEq, List.cons.injEq, Prod.mk.injEq, true_and, and_true] at hvalue
  exact ⟨String.toList_injective (Text.bytes_injective hid),
    congrArg String.ofList (Text.bytes_injective hupper), hvalue.2, hvalue.1⟩

/-- Two calls have the same bytes exactly if they are for one mapping and agree in the method but
for case, in the query and in the body, none being as null. Values agree if they are the same;
where no number is a negative zero, that is how values are compared. -/
theorem keyBytes_eq_iff :
    (keyBytes id method query body = keyBytes id' method' query' body' ↔
      id = id' ∧ Text.upperString method = Text.upperString method' ∧ query = query' ∧
        body.getD .null = body'.getD .null) ∧
    (query.Definite → query'.Definite → (body.getD .null).Definite → (body'.getD .null).Definite →
      (keyBytes id method query body = keyBytes id' method' query' body' ↔
        id = id' ∧ Text.upperString method = Text.upperString method' ∧
          query.same query' = true ∧ (body.getD .null).same (body'.getD .null) = true)) := by
  have hiff : keyBytes id method query body = keyBytes id' method' query' body' ↔
      id = id' ∧ Text.upperString method = Text.upperString method' ∧ query = query' ∧
        body.getD .null = body'.getD .null := by
    refine ⟨parts_of_keyBytes hmethod hmethod', ?_⟩
    rintro ⟨rfl, hupper, rfl, hbody⟩
    unfold keyBytes
    rw [String.ofList_injective hupper, hbody]
  refine ⟨hiff, fun hquery hquery' hbody hbody' => ?_⟩
  rw [hiff, Json.same_iff hquery hquery', Json.same_iff hbody hbody']

end Calls

/-- A name that looks like that of another mapping with a method, a method in lower case, no body,
and an integer in the place of a float. -/
theorem keyBytes_eq_iff_get :
    '\x00' ∉ "get".toList ∧ '\x00' ∉ "GET".toList ∧
      keyBytes "m\x00GET" "get" .null none = keyBytes "m\x00GET" "GET" .null (some .null) ∧
      keyBytes "m\x00GET" "get" .null none ≠ keyBytes "m" "GET" .null none ∧
      keyBytes "m" "get" (.num (.int 1)) none ≠ keyBytes "m" "GET" (.num (.float 1)) none := by
  have hget : '\x00' ∉ "get".toList := by decide
  have hGET : '\x00' ∉ "GET".toList := by decide
  refine ⟨hget, hGET, ?_, fun h => ?_, fun h => ?_⟩
  · exact (keyBytes_eq_iff hget hGET).1.mpr ⟨rfl, by decide +kernel, rfl, rfl⟩
  · exact absurd ((keyBytes_eq_iff hget hGET).1.mp h).1 (by decide)
  · have hint : Number.Definite (.int 1) := trivial
    have hfloat : Number.Definite (.float 1) :=
      ⟨by decide +kernel, fun h => absurd (congrArg Decimal.isNegative h) (by decide +kernel)⟩
    have hnull : ((none : Option Json).getD .null).Definite := .null
    obtain ⟨-, -, hsame, -⟩ := ((keyBytes_eq_iff hget hGET).2 (.num hint) (.num hfloat) hnull
      hnull).mp h
    exact absurd hsame (by decide)

end Switchboard
