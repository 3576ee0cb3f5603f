import Switchboard.Json.Reader
import Switchboard.Proofs.Fields

/-! Values whose objects have their members in order, as all values have that are read from text. -/
namespace Switchboard

namespace Fields
variable {α : Type}

theorem Sorted.foldl_write {β : Type} (write : Fields α → String × β → α)
    (entries : List (String × β)) {fs : Fields α} (hs : Sorted fs) :
    Sorted (entries.foldl (fun fs e => Fields.insert e.1 (write fs e) fs) fs) := by
  induction entries generalizing fs with
  | nil => exact hs
  | cons e entries ih => exact ih (hs.insert e.1 (write fs e))

theorem sorted_ofList (entries : List (String × α)) : Sorted (ofList entries) :=
  Sorted.foldl_write (fun _ e => e.2) entries .nil

theorem mem_of_mem_ofList {entries : List (String × α)} {f : String × α}
    (h : f ∈ ofList entries) : f ∈ entries := by
  have hfold : ∀ fs : Fields α, f ∈ entries.foldl (fun fs e => insert e.1 e.2 fs) fs →
      f ∈ fs ∨ f ∈ entries := by
    clear h
    induction entries with
    | nil => exact fun fs hf => .inl hf
    | cons e entries ih =>
      intro fs hf
      rcases ih _ hf with hf | hf
      · rcases mem_of_mem_insert hf with rfl | hf
        · exact .inr List.mem_cons_self
        · exact .inl hf
      · exact .inr (List.mem_cons_of_mem _ hf)
  rcases hfold [] h with hf | hf
  · cases hf
  · exact hf

theorem perm_insert {k : String} (v : α) {fs : Fields α} (h : k ∉ keys fs) :
    (insert k v fs).Perm ((k, v) :: fs) := by
  induction fs with
  | nil => exact .refl _
  | cons f fs ih =>
    obtain ⟨l, w⟩ := f
    obtain ⟨hne, hrest⟩ : k ≠ l ∧ k ∉ keys fs := by simpa [keys] using h
    rw [insert, if_neg hne]
    split
    · exact .refl _
    · exact ((ih hrest).cons (l, w)).trans (.swap (k, v) (l, w) fs)

/-- Entries with different names are all kept, in another order at most. -/
theorem perm_ofList {entries : List (String × α)} (h : (keys entries).Nodup) :
    (ofList entries).Perm entries := by
  have hfold : ∀ fs : Fields α, (∀ k ∈ keys entries, k ∉ keys fs) →
      (entries.foldl (fun fs e => insert e.1 e.2 fs) fs).Perm (fs ++ entries) := by
    induction entries with
    | nil => simp
    | cons e entries ih =>
      intro fs hfs
      obtain ⟨he, hentries⟩ := List.forall_mem_cons.mp hfs
      obtain ⟨hapart, hnodup⟩ := List.nodup_cons.mp h
      have hnext : ∀ k ∈ keys entries, k ∉ keys (insert e.1 e.2 fs) := by
        intro k hk hmem
        rcases mem_keys_insert.mp hmem with rfl | hmem
        · exact hapart hk
        · exact hentries k hk hmem
      have hrest := ih hnodup _ hnext
      exact hrest.trans (((perm_insert e.2 he).append_right entries).trans List.perm_middle.symm)
  exact hfold [] fun _ _ => List.not_mem_nil

end Fields

namespace Json

/-- Every object in the value has its members in order. -/
inductive Ordered : Json → Prop
  | null : Ordered .null
  | bool (b : Bool) : Ordered (.bool b)
  | num (n : Number) : Ordered (.num n)
  | str (s : String) : Ordered (.str s)
  | arr {items : List Json} (h : ∀ v ∈ items, Ordered v) : Ordered (.arr items)
  | obj {members : List (String × Json)} (hs : Fields.Sorted members)
      (h : ∀ e ∈ members, Ordered e.2) : Ordered (.obj members)

theorem Ordered.sorted {members : List (String × Json)} (h : Ordered (.obj members)) :
    Fields.Sorted members := by
  cases h with
  | obj hs _ => exact hs

theorem Ordered.member {members : List (String × Json)} (h : Ordered (.obj members)) {k : String} :
    ∀ v ∈ Fields.get? k members, v.Ordered := by
  cases h with
  | obj _ hmembers => exact fun v hv => hmembers (k, v) (Fields.mem_of_get? hv)

mutual

theorem ordered_normal (v : Json) : v.normal.Ordered := by
  cases v with
  | null => exact .null
  | bool b => exact .bool b
  | num n => exact .num n
  | str s => exact .str s
  | arr items => exact .arr (ordered_normalItems items)
  | obj members =>
    exact .obj (Fields.sorted_ofList _) fun e he =>
      ordered_normalMembers members e (Fields.mem_of_mem_ofList he)

theorem ordered_normalItems (items : List Json) : ∀ v ∈ normalItems items, v.Ordered := by
  cases items with
  | nil => exact fun v hv => by cases hv
  | cons a items =>
    exact List.forall_mem_cons.mpr ⟨ordered_normal a, ordered_normalItems items⟩

theorem ordered_normalMembers (members : List (String × Json)) :
    ∀ e ∈ normalMembers members, e.2.Ordered := by
  cases members with
  | nil => exact fun e he => by cases he
  | cons f members =>
    exact List.forall_mem_cons.mpr ⟨ordered_normal f.2, ordered_normalMembers members⟩

end

/-- What is read is in order. -/
theorem ordered_of_parse {s : String} {v : Json} (h : Json.parse s = .ok v) : v.Ordered := by
  unfold Json.parse at h
  cases hread : read s.toList with
  | error e =>
    rw [hread] at h
    cases h
  | ok w =>
    rw [hread] at h
    cases h
    exact ordered_normal w

end Json
end Switchboard
