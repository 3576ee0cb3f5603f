import Switchboard.Expiring
import Switchboard.Proofs.Fields

/-! What values that are kept for a time stem from. Entries are handled as members of the list, so
that nothing here asks how a full cache makes room. -/
namespace Switchboard

namespace Expiring
variable {α : Type}

theorem makeRoom_sublist (c : Expiring α) (now : Int) (k : String) :
    (c.makeRoom now k).entries.Sublist c.entries := by
  have hdrop : (c.dropExpired now).entries.Sublist c.entries := List.filter_sublist
  unfold makeRoom
  split
  · split
    · unfold dropOldest
      split
      · exact List.filter_sublist.trans hdrop
      · exact hdrop
    · exact hdrop
  · exact List.Sublist.refl _

/-- An entry is the one that was written last or was there before. -/
theorem mem_of_mem_insert {c : Expiring α} {now : Int} {k l : String} {a : α} {e : Entry α}
    (h : (l, e) ∈ (c.insert now k a).entries) : l = k ∧ e = ⟨a, now⟩ ∨ (l, e) ∈ c.entries := by
  unfold insert at h
  split at h
  · exact .inr h
  · rcases Fields.mem_of_mem_insert h with h | h
    · exact .inl ⟨congrArg Prod.fst h, congrArg Prod.snd h⟩
    · exact .inr ((c.makeRoom_sublist now k).subset h)

theorem sorted_insert {c : Expiring α} (hc : Fields.Sorted c.entries) (now : Int) (k : String)
    (a : α) : Fields.Sorted (c.insert now k a).entries := by
  unfold insert
  split
  · exact hc
  · exact Fields.Sorted.insert (List.Pairwise.sublist (c.makeRoom_sublist now k) hc) k ⟨a, now⟩

/-- Under the key that is written nothing older stays, if anything is kept at all. -/
theorem eq_of_mem_insert_self {c : Expiring α} (hc : Fields.Sorted c.entries)
    (hcap : c.capacity ≠ 0) {now : Int} {k : String} {a : α} {e : Entry α}
    (h : (k, e) ∈ (c.insert now k a).entries) : e = ⟨a, now⟩ := by
  have hget := (sorted_insert hc now k a).get?_of_mem h
  rw [insert, if_neg hcap, Fields.get?_insert_self] at hget
  exact (Option.some.inj hget).symm

theorem lifetime_insert (c : Expiring α) (now : Int) (k : String) (a : α) :
    (c.insert now k a).lifetime = c.lifetime := by
  unfold insert
  split <;> rfl

theorem capacity_insert (c : Expiring α) (now : Int) (k : String) (a : α) :
    (c.insert now k a).capacity = c.capacity := by
  unfold insert
  split <;> rfl

/-- A live value is that of an entry that has not reached the lifetime. -/
theorem mem_of_get? {c : Expiring α} {now : Int} {k : String} {a : α}
    (h : c.get? now k = some a) :
    ∃ e, (k, e) ∈ c.entries ∧ e.value = a ∧ ¬ (c.lifetime : Int) ≤ now - e.since := by
  unfold get? at h
  obtain ⟨e, he, ha⟩ := Option.map_eq_some_iff.mp h
  obtain ⟨hget, hlive⟩ := Option.filter_eq_some_iff.mp he
  refine ⟨e, Fields.mem_of_get? hget, ha, ?_⟩
  simpa [Entry.isExpired] using hlive

/-- What is written is there until it is as old as the lifetime. -/
theorem get?_insert_of_lt {c : Expiring α} (hcap : c.capacity ≠ 0) {now later : Int}
    (h : later - now < c.lifetime) (k : String) (a : α) :
    (c.insert now k a).get? later k = some a := by
  have hlive : Entry.isExpired c.lifetime later (⟨a, now⟩ : Entry α) = false := by
    simpa [Entry.isExpired] using h
  simp only [insert, hcap, ite_false, get?, Fields.get?_insert_self]
  rw [Option.filter_some, hlive]
  rfl

end Expiring
end Switchboard
