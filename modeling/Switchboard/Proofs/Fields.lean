import Switchboard.Fields

/-! Members of fields, and fields that are written one by one. -/
namespace Switchboard

namespace Fields
variable {α : Type}

theorem mem_of_mem_insert {k : String} {v : α} {fs : Fields α} {f : String × α}
    (h : f ∈ insert k v fs) : f = (k, v) ∨ f ∈ fs := by
  induction fs with
  | nil => exact .inl (List.mem_singleton.mp h)
  | cons e fs ih =>
    obtain ⟨l, w⟩ := e
    unfold insert at h
    split at h
    · exact List.mem_cons.mp h
    · split at h
      · rcases List.mem_cons.mp h with h | h
        · exact .inl h
        · exact .inr (List.mem_cons_of_mem _ h)
      · rcases List.mem_cons.mp h with h | h
        · exact .inr (h ▸ List.mem_cons_self)
        · rcases ih h with h | h
          · exact .inl h
          · exact .inr (List.mem_cons_of_mem _ h)

theorem mem_of_get? {k : String} {v : α} {fs : Fields α} (h : get? k fs = some v) :
    (k, v) ∈ fs := by
  induction fs with
  | nil => cases h
  | cons e fs ih =>
    obtain ⟨l, w⟩ := e
    unfold get? at h
    split at h
    · rename_i hk
      have hv : w = v := Option.some.inj h
      simp [hk, hv]
    · exact List.mem_cons_of_mem _ (ih h)

theorem mem_keys_iff {k : String} {fs : Fields α} : k ∈ keys fs ↔ ∃ v, get? k fs = some v := by
  induction fs with
  | nil => simp [keys, get?]
  | cons f fs ih =>
    obtain ⟨l, w⟩ := f
    unfold keys at ih ⊢
    by_cases hk : k = l
    · simp [get?, hk]
    · simp [get?, hk, ← ih]

theorem has_eq_true_iff {k : String} {fs : Fields α} : has k fs = true ↔ k ∈ keys fs :=
  Option.isSome_iff_exists.trans mem_keys_iff.symm

/-- Sorted fields have one value for a name. -/
theorem Sorted.get?_of_mem {k : String} {v : α} {fs : Fields α} (hs : Sorted fs)
    (h : (k, v) ∈ fs) : get? k fs = some v := by
  induction fs with
  | nil => cases h
  | cons e fs ih =>
    obtain ⟨l, w⟩ := e
    have ⟨hl, hs⟩ := List.pairwise_cons.mp hs
    rcases List.mem_cons.mp h with h | h
    · cases h
      simp [get?]
    · have hlt : l < k := hl (k, v) h
      have hne : k ≠ l := fun heq => String.lt_irrefl k (heq ▸ hlt)
      rw [get?, if_neg hne]
      exact ih hs h

theorem get?_eq_none_of_lt {k : String} {fs : Fields α} (h : ∀ f ∈ fs, k < f.1) :
    get? k fs = none := by
  refine Option.eq_none_iff_forall_ne_some.mpr fun v hv => ?_
  exact String.lt_irrefl k (h (k, v) (mem_of_get? hv))

/-- Sorted fields are told apart by what they have for some name. -/
theorem Sorted.ext {fs gs : Fields α} (hf : Sorted fs) (hg : Sorted gs)
    (h : ∀ k, get? k fs = get? k gs) : fs = gs := by
  induction fs generalizing gs with
  | nil =>
    cases gs with
    | nil => rfl
    | cons g gs =>
      have hhead := h g.1
      simp [get?] at hhead
  | cons f fs ih =>
    obtain ⟨k, v⟩ := f
    obtain ⟨hkf, hsf⟩ := List.pairwise_cons.mp hf
    have hk : get? k gs = some v := by rw [← h k, get?, if_pos rfl]
    cases gs with
    | nil => cases hk
    | cons g gs =>
      obtain ⟨l, w⟩ := g
      obtain ⟨hlg, hsg⟩ := List.pairwise_cons.mp hg
      have hl : get? l ((k, v) :: fs) = some w := by rw [h l, get?, if_pos rfl]
      have heq : k = l := by
        refine Classical.byContradiction fun hne => ?_
        rw [get?, if_neg hne] at hk
        rw [get?, if_neg (Ne.symm hne)] at hl
        exact String.lt_asymm (hlg (k, v) (mem_of_get? hk)) (hkf (l, w) (mem_of_get? hl))
      subst heq
      rw [get?, if_pos rfl] at hk
      cases hk
      refine congrArg (List.cons (k, v)) (ih hsf hsg fun m => ?_)
      by_cases hm : m = k
      · rw [hm, get?_eq_none_of_lt hkf, get?_eq_none_of_lt hlg]
      · have hrest := h m
        rwa [get?, get?, if_neg hm, if_neg hm] at hrest

theorem insert_of_lt {k : String} (v : α) {fs : Fields α} (h : ∀ f ∈ fs, f.1 < k) :
    insert k v fs = fs ++ [(k, v)] := by
  induction fs with
  | nil => rfl
  | cons f fs ih =>
    obtain ⟨l, w⟩ := f
    have hlt : l < k := h (l, w) List.mem_cons_self
    have hnot : ¬ k < l := fun hk => String.lt_irrefl k (String.lt_trans hk hlt)
    have hne : k ≠ l := fun heq => String.lt_irrefl k (heq ▸ hlt)
    have hrest := ih fun f hf => h f (List.mem_cons_of_mem _ hf)
    rw [insert, if_neg hnot, if_neg hne, hrest]
    rfl

theorem foldl_insert {fs gs : Fields α} (h : Sorted (fs ++ gs)) :
    gs.foldl (fun fs e => insert e.1 e.2 fs) fs = fs ++ gs := by
  induction gs generalizing fs with
  | nil => exact (List.append_nil fs).symm
  | cons g gs ih =>
    obtain ⟨k, v⟩ := g
    have hlt : ∀ f ∈ fs, f.1 < k := fun f hf =>
      (List.pairwise_append.mp h).2.2 f hf (k, v) List.mem_cons_self
    have hassoc : fs ++ [(k, v)] ++ gs = fs ++ (k, v) :: gs := by simp
    rw [List.foldl_cons, insert_of_lt v hlt, ih (hassoc ▸ h), hassoc]

/-- Sorted fields are what they are written as. -/
theorem ofList_of_sorted {fs : Fields α} (h : Sorted fs) : ofList fs = fs := foldl_insert h

theorem get?_ofList_map (k : String) (ks : List String) (f : String → α) :
    get? k (ofList (ks.map fun l => (l, f l))) = if k ∈ ks then some (f k) else none := by
  have hfold : ∀ fs : Fields α,
      get? k ((ks.map fun l => (l, f l)).foldl (fun fs e => insert e.1 e.2 fs) fs) =
        if k ∈ ks then some (f k) else get? k fs := by
    induction ks with
    | nil => exact fun fs => rfl
    | cons l ks ih =>
      intro fs
      rw [List.map_cons, List.foldl_cons, ih]
      by_cases hl : k = l
      · simp [hl]
      · simp [hl]
  exact hfold []

/-- What is written for each name of sorted fields hangs on what there was for that name, and on
nothing that is written for another one. -/
theorem Sorted.get?_foldl_write {β : Type} (write : Option α → β → α) {gs : Fields β}
    (hs : Sorted gs) (fs : Fields α) (k : String) :
    get? k (gs.foldl (fun fs e => Fields.insert e.1 (write (get? e.1 fs) e.2) fs) fs) =
      match get? k gs with
      | none => get? k fs
      | some v => some (write (get? k fs) v) := by
  induction gs generalizing fs with
  | nil => rfl
  | cons e gs ih =>
    obtain ⟨l, v⟩ := e
    obtain ⟨hlt, hs⟩ := List.pairwise_cons.mp hs
    rw [List.foldl_cons, ih hs]
    by_cases hk : k = l
    · subst hk
      rw [get?_eq_none_of_lt hlt, get?, if_pos rfl]
      exact get?_insert_self k _ fs
    · rw [get?, if_neg hk, get?_insert_of_ne hk]

theorem get?_filter (p : String → Bool) (fs : Fields α) (k : String) :
    get? k (fs.filter fun e => p e.1) = if p k then get? k fs else none := by
  induction fs with
  | nil => simp [get?]
  | cons e fs ih =>
    obtain ⟨l, v⟩ := e
    by_cases hk : k = l
    · subst hk
      by_cases hp : p k = true
      · simp [hp, get?]
      · simpa [hp] using ih
    · by_cases hp : p l = true
      · simp [hp, get?, hk, ih]
      · simp [hp, get?, hk, ih]

theorem Sorted.map {β : Type} (f : α → β) {fs : Fields α} (h : Sorted fs) :
    Sorted (fs.map fun e => (e.1, f e.2)) := by
  unfold Sorted
  rw [List.pairwise_map]
  exact h

theorem length_insert_le (k : String) (v : α) (fs : Fields α) :
    (insert k v fs).length ≤ fs.length + 1 := by
  induction fs with
  | nil => simp [insert]
  | cons f fs ih =>
    unfold insert
    split
    · simp
    · split
      · simp
      · simpa using ih

/-- A name that is there is written over. -/
theorem Sorted.length_insert_of_has {fs : Fields α} (hs : Sorted fs) {k : String}
    (h : has k fs = true) (v : α) : (Fields.insert k v fs).length = fs.length := by
  obtain ⟨w, hw⟩ := Option.isSome_iff_exists.mp h
  clear h
  induction fs with
  | nil => cases hw
  | cons f fs ih =>
    obtain ⟨l, u⟩ := f
    have ⟨hl, hs⟩ := List.pairwise_cons.mp hs
    by_cases hk : k = l
    · simp [Fields.insert, hk]
    · have hrest : get? k fs = some w := by rwa [get?, if_neg hk] at hw
      have hlt : l < k := hl (k, w) (mem_of_get? hrest)
      rw [Fields.insert, if_neg (String.lt_asymm hlt), if_neg hk, List.length_cons, ih hs hrest,
        List.length_cons]

theorem erase_insert_self (k : String) (v : α) (fs : Fields α) :
    erase k (insert k v fs) = erase k fs := by
  induction fs with
  | nil => simp [insert, erase]
  | cons f fs ih =>
    obtain ⟨l, w⟩ := f
    unfold insert
    split
    · simp [erase]
    · split
      · rename_i hk
        simp [erase, hk]
      · unfold erase at ih ⊢
        rw [List.filter_cons, List.filter_cons, ih]

theorem erase_of_not_mem {k : String} {fs : Fields α} (h : k ∉ keys fs) : erase k fs = fs :=
  List.filter_eq_self.mpr fun _ hf => decide_eq_true fun heq => h (heq ▸ List.mem_map_of_mem hf)

theorem Sorted.length_erase_of_mem {fs : Fields α} (hs : Sorted fs) {k : String}
    (h : k ∈ keys fs) : (Fields.erase k fs).length + 1 = fs.length := by
  induction fs with
  | nil => cases h
  | cons f fs ih =>
    obtain ⟨l, w⟩ := f
    have ⟨hl, hs⟩ := List.pairwise_cons.mp hs
    by_cases hk : k = l
    · have hrest : k ∉ keys fs := by
        intro hmem
        obtain ⟨g, hg, hgk⟩ := List.mem_map.mp hmem
        have hlt : l < g.1 := hl g hg
        rw [hgk, hk] at hlt
        exact String.lt_irrefl l hlt
      have herase : Fields.erase k ((l, w) :: fs) = Fields.erase k fs := by
        simp [Fields.erase, hk]
      rw [herase, erase_of_not_mem hrest, List.length_cons]
    · have hmem : k ∈ keys fs := (List.mem_cons.mp h).resolve_left hk
      have herase : Fields.erase k ((l, w) :: fs) = (l, w) :: Fields.erase k fs := by
        simp [Fields.erase, Ne.symm hk]
      rw [herase, List.length_cons, ih hs hmem, List.length_cons]

/-- Of two values that are written for a name the later one stays. -/
theorem insert_insert_self (k : String) (v w : α) (fs : Fields α) :
    insert k v (insert k w fs) = insert k v fs := by
  induction fs with
  | nil => simp [insert]
  | cons f fs ih =>
    obtain ⟨l, u⟩ := f
    by_cases hlt : k < l
    · simp [insert, hlt]
    · by_cases heq : k = l
      · simp [insert, heq]
      · simp [insert, hlt, heq, ih]

/-- A name comes in front of all that are greater, whatever else is written. -/
theorem insert_comm_of_lt {k l : String} (h : k < l) (v w : α) (fs : Fields α) :
    insert k v (insert l w fs) = insert l w (insert k v fs) := by
  have hnot : ¬ l < k := String.lt_asymm h
  have hne : l ≠ k := fun heq => String.lt_irrefl k (heq ▸ h)
  induction fs with
  | nil => simp [insert, h, hnot, hne]
  | cons f fs ih =>
    obtain ⟨m, u⟩ := f
    by_cases hlm : l < m
    · have hkm : k < m := String.lt_trans h hlm
      simp [insert, h, hlm, hkm, hnot, hne]
    · by_cases heq : l = m
      · subst heq
        simp [insert, h, hnot, hne]
      · by_cases hkm : k < m
        · simp [insert, hlm, heq, hkm, hnot, hne]
        · by_cases hkeq : k = m
          · subst hkeq
            simp [insert, hnot, hne]
          · simp [insert, hlm, heq, hkm, hkeq, ih]

/-- Different names are written in any order. -/
theorem insert_comm {k l : String} (h : k ≠ l) (v w : α) (fs : Fields α) :
    insert k v (insert l w fs) = insert l w (insert k v fs) := by
  by_cases hlt : k < l
  · exact insert_comm_of_lt hlt v w fs
  · have hgt : l < k := Classical.byContradiction fun hnot =>
      h (String.le_antisymm (String.not_lt.mp hnot) (String.not_lt.mp hlt))
    exact (insert_comm_of_lt hgt w v fs).symm

/-- Sorted fields do not change where a name gets the value that it has. -/
theorem Sorted.insert_of_get? {fs : Fields α} (hs : Sorted fs) {k : String} {v : α}
    (h : get? k fs = some v) : Fields.insert k v fs = fs := by
  induction fs with
  | nil => cases h
  | cons f fs ih =>
    obtain ⟨l, w⟩ := f
    have ⟨hl, hs⟩ := List.pairwise_cons.mp hs
    by_cases hk : k = l
    · subst hk
      rw [get?, if_pos rfl] at h
      cases h
      simp [Fields.insert]
    · rw [get?, if_neg hk] at h
      have hlt : l < k := hl (k, v) (mem_of_get? h)
      rw [Fields.insert, if_neg (String.lt_asymm hlt), if_neg hk, ih hs h]

end Fields

end Switchboard
