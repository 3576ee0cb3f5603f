import Switchboard.Proofs.Execution.Sequential

/-! What the strategies make of calls: which calls succeeded and which failed decides the status,
whatever order they came in. -/
namespace Switchboard

/-- There are no errors where every call succeeded, and only there. -/
theorem Call.errorTexts_eq_nil_iff {calls : List Call} (h : ∀ c ∈ calls, c.IsSettled) :
    errorTexts calls = [] ↔ ∀ c ∈ calls, c.succeeded = true := by
  have hfailed : errorTexts calls = [] ↔ (calls.filter fun c => !c.succeeded) = [] := by
    rw [← List.map_eq_nil_iff (f := some), errorTexts_eq h, List.map_eq_nil_iff]
  rw [hfailed, List.filter_eq_nil_iff]
  simp

theorem Call.exists_failed {calls : List Call} (h : ¬ ∀ c ∈ calls, c.succeeded = true) :
    ∃ c ∈ calls, c.succeeded = false := by
  simpa using h

namespace Strategy
variable {calls : List Call} {status : Status} {data : Json}

/-- A route that stops at the first success fails where there is none. -/
theorem ofFirst_eq {late : Status} (hs : ∀ c ∈ calls, c.IsSettled)
    (h : ofFirst late calls = (status, data)) :
    (∀ c ∈ calls, c.succeeded = false) ∧ status = .failure ∧ data = .null ∨
      (∃ c ∈ calls, c.succeeded = true) ∧
        ((∀ c ∈ calls, c.succeeded = true) ∧ status = .success ∨
          (∃ c ∈ calls, c.succeeded = false) ∧ status = late) := by
  unfold ofFirst at h
  cases hfind : calls.find? (·.succeeded) with
  | none =>
    rw [hfind] at h
    cases h
    exact .inl ⟨by simpa using hfind, rfl, rfl⟩
  | some c =>
    rw [hfind] at h
    refine .inr ⟨⟨c, List.mem_of_find?_eq_some hfind, List.find?_some hfind⟩, ?_⟩
    by_cases hclean : ∀ c ∈ calls, c.succeeded = true
    · simp only [(Call.errorTexts_eq_nil_iff hs).mpr hclean, ite_true] at h
      cases h
      exact .inl ⟨hclean, rfl⟩
    · simp only [mt (Call.errorTexts_eq_nil_iff hs).mp hclean, ite_false] at h
      cases h
      exact .inr ⟨Call.exists_failed hclean, rfl⟩

/-- A route that calls all its mappings fails where none succeeded, and where one failed that may
not. -/
theorem ofAll_eq {strict : Bool} {combine : List Source → Json} (hs : ∀ c ∈ calls, c.IsSettled)
    (h : ofAll strict combine calls = (status, data)) :
    ((∀ c ∈ calls, c.succeeded = false) ∨ strict = true ∧ ∃ c ∈ calls, c.succeeded = false) ∧
        status = .failure ∧ data = .null ∨
      (∃ c ∈ calls, c.succeeded = true) ∧ (strict = true → ∀ c ∈ calls, c.succeeded = true) ∧
        data = combine (calls.map Call.source) ∧
        ((∀ c ∈ calls, c.succeeded = true) ∧ status = .success ∨
          (∃ c ∈ calls, c.succeeded = false) ∧ status = .partly) := by
  unfold ofAll at h
  by_cases hany : ∃ c ∈ calls, c.succeeded = true
  · have hany' : calls.any (·.succeeded) = true := by simpa using hany
    by_cases hclean : ∀ c ∈ calls, c.succeeded = true
    · simp only [hany', (Call.errorTexts_eq_nil_iff hs).mpr hclean, decide_true, Bool.not_true,
        Bool.and_false, Bool.or_false, Bool.false_eq_true, ite_false, ite_true] at h
      cases h
      exact .inr ⟨hany, fun _ => hclean, rfl, .inl ⟨hclean, rfl⟩⟩
    · have herrors := mt (Call.errorTexts_eq_nil_iff hs).mp hclean
      simp only [hany', herrors, decide_false, Bool.not_true, Bool.not_false, Bool.and_true,
        Bool.false_or, ite_false] at h
      cases strict with
      | true =>
        cases h
        exact .inl ⟨.inr ⟨rfl, Call.exists_failed hclean⟩, rfl, rfl⟩
      | false =>
        cases h
        exact .inr ⟨hany, fun hstrict => absurd hstrict (by simp), rfl,
          .inr ⟨Call.exists_failed hclean, rfl⟩⟩
  · have hany' : calls.any (·.succeeded) = false := by simpa using hany
    simp only [hany', Bool.not_false, Bool.true_or, ite_true] at h
    cases h
    exact .inl ⟨.inl (by simpa using hany), rfl, rfl⟩

/-- A chain fails where one of its calls did. -/
theorem ofChain_eq {body : Option Json} (h : ofChain body calls = (status, data)) :
    (∃ c ∈ calls, c.succeeded = false) ∧ status = .failure ∧ data = .null ∨
      (∀ c ∈ calls, c.succeeded = true) ∧ status = .success ∧
        data = ((calls.getLast?.map (·.data)).getD body).getD .null := by
  unfold ofChain at h
  by_cases hclean : ∀ c ∈ calls, c.succeeded = true
  · rw [if_pos (List.all_eq_true.mpr hclean)] at h
    cases h
    exact .inr ⟨hclean, rfl, rfl⟩
  · rw [if_neg (fun hall => hclean (List.all_eq_true.mp hall))] at h
    cases h
    exact .inl ⟨Call.exists_failed hclean, rfl, rfl⟩

end Strategy
end Switchboard
