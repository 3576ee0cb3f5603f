/-! Named values, kept in the order of their names: members of an object, headers, parameters of a
query. A name that is written again replaces its value. -/
namespace Switchboard

abbrev Fields (α : Type) := List (String × α)

namespace Fields
variable {α : Type}

def get? (k : String) : Fields α → Option α
  | [] => none
  | (l, v) :: fs => if k = l then some v else get? k fs

def insert (k : String) (v : α) : Fields α → Fields α
  | [] => [(k, v)]
  | (l, w) :: fs =>
    if k < l then (k, v) :: (l, w) :: fs
    else if k = l then (k, v) :: fs
    else (l, w) :: insert k v fs

def erase (k : String) (fs : Fields α) : Fields α := fs.filter fun f => f.1 ≠ k

/-- Later values of a name replace earlier ones. -/
def ofList (entries : List (String × α)) : Fields α :=
  entries.foldl (fun fs e => insert e.1 e.2 fs) []

def keys (fs : Fields α) : List String := fs.map (·.1)

def has (k : String) (fs : Fields α) : Bool := (get? k fs).isSome

/-- Names strictly increase. -/
def Sorted (fs : Fields α) : Prop := fs.Pairwise fun a b => a.1 < b.1

@[simp] theorem get?_insert_self (k : String) (v : α) (fs : Fields α) :
    get? k (insert k v fs) = some v := by
  induction fs with
  | nil => simp [insert, get?]
  | cons e fs ih =>
    obtain ⟨l, w⟩ := e
    unfold insert
    split
    · simp [get?]
    · split
      · simp [get?]
      · simp [get?, *]

@[simp] theorem get?_insert_of_ne {k l : String} (h : l ≠ k) (v : α) (fs : Fields α) :
    get? l (insert k v fs) = get? l fs := by
  induction fs with
  | nil => simp [insert, get?, h]
  | cons e fs ih =>
    obtain ⟨m, w⟩ := e
    unfold insert
    split
    · simp [get?, h]
    · split
      · simp_all [get?]
      · simp [get?, ih]

theorem mem_keys_insert {k l : String} {v : α} {fs : Fields α} :
    l ∈ keys (insert k v fs) ↔ l = k ∨ l ∈ keys fs := by
  induction fs with
  | nil => simp [insert, keys]
  | cons e fs ih =>
    obtain ⟨m, w⟩ := e
    simp only [keys] at ih
    unfold insert
    split
    · simp [keys]
    · split
      · simp_all [keys]
      · simp only [keys, List.map_cons, List.mem_cons, ih]
        exact or_left_comm

theorem Sorted.insert {fs : Fields α} (h : Sorted fs) (k : String) (v : α) :
    Sorted (Fields.insert k v fs) := by
  induction fs with
  | nil => simp [Fields.insert, Sorted]
  | cons e fs ih =>
    obtain ⟨l, w⟩ := e
    have ⟨hl, hs⟩ := List.pairwise_cons.mp h
    unfold Fields.insert
    split
    · rename_i hk
      refine List.pairwise_cons.mpr ⟨?_, h⟩
      intro a ha
      rcases List.mem_cons.mp ha with rfl | ha
      · exact hk
      · exact String.lt_trans hk (hl a ha)
    · split
      · rename_i hk
        subst hk
        exact List.pairwise_cons.mpr ⟨hl, hs⟩
      · rename_i hk hne
        refine List.pairwise_cons.mpr ⟨?_, ih hs⟩
        intro a ha
        have hm : a.1 ∈ keys (Fields.insert k v fs) := List.mem_map_of_mem ha
        rcases mem_keys_insert.mp hm with hm | hm
        · rw [hm]
          exact Classical.byContradiction fun h' =>
            hne (String.le_antisymm (String.not_lt.mp h') (String.not_lt.mp hk))
        · obtain ⟨b, hb, hba⟩ := List.mem_map.mp hm
          rw [← hba]
          exact hl b hb

theorem Sorted.erase {fs : Fields α} (h : Sorted fs) (k : String) : Sorted (Fields.erase k fs) :=
  List.Pairwise.filter _ h

@[simp] theorem get?_erase_self (k : String) (fs : Fields α) : get? k (erase k fs) = none := by
  induction fs with
  | nil => rfl
  | cons f fs ih =>
    obtain ⟨l, v⟩ := f
    unfold erase at ih ⊢
    by_cases h : l = k
    · simpa [h] using ih
    · simpa [h, get?, Ne.symm h] using ih

@[simp] theorem get?_erase_of_ne {k l : String} (h : l ≠ k) (fs : Fields α) :
    get? l (erase k fs) = get? l fs := by
  induction fs with
  | nil => rfl
  | cons f fs ih =>
    obtain ⟨m, v⟩ := f
    unfold erase at ih ⊢
    by_cases hm : m = k
    · subst hm
      simpa [get?, h] using ih
    · simp only [List.filter_cons, hm, ne_eq, not_false_eq_true, decide_true, ite_true, get?, ih]

end Fields
end Switchboard
