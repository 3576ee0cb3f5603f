import Switchboard.Proofs.Expiring.Use

/-! What a cache gives up for a new value. Nothing goes as long as there is room; a full cache drops
all that has expired, and if nothing has, one entry that no other one is older than. -/
namespace Switchboard

namespace Expiring
variable {α : Type}

/-- Some moves lead from an empty cache to this one. -/
def Reachable (c : Expiring α) : Prop :=
  ∃ lifetime capacity now moves, c = ((Clocked.start lifetime capacity now).run moves).cache

theorem Reachable.sorted {c : Expiring α} (h : c.Reachable) : Fields.Sorted c.entries := by
  obtain ⟨lifetime, capacity, now, moves, rfl⟩ := h
  exact (Follows.run lifetime capacity now moves).sorted

theorem Reachable.size_le {c : Expiring α} (h : c.Reachable) : c.size ≤ c.capacity := by
  obtain ⟨lifetime, capacity, now, moves, rfl⟩ := h
  have hfollows := Follows.run lifetime capacity now moves
  rw [hfollows.capacity_eq]
  exact hfollows.size_le

section
variable {c : Expiring α} {now : Int} {k l : String} {a : α}

theorem isFullFor_iff : c.isFullFor k = true ↔
    ¬ (Fields.has k c.entries = true ∨ c.size < c.capacity) := by
  rw [isFullFor_eq_true_iff, not_or, Nat.not_lt, Bool.not_eq_true]
  exact and_comm

/-- Besides the entry that is written, what is stored is what has been left in making room. -/
theorem erase_insert (hcap : c.capacity ≠ 0) (now : Int) (k : String) (a : α) :
    Fields.erase k (c.insert now k a).entries = Fields.erase k (c.makeRoom now k).entries := by
  rw [insert, if_neg hcap]
  exact Fields.erase_insert_self k _ _

theorem erase_insert_of_room (hc : c.Reachable) (hcap : c.capacity ≠ 0)
    (hroom : c.isFullFor k = false) :
    Fields.erase k (c.insert now k a).entries = Fields.erase k c.entries := by
  rw [erase_insert hcap]
  rcases makeRoom_cases hcap hc.size_le now k with ⟨-, hsame⟩ | ⟨hfull, -⟩ | ⟨hfull, -⟩
  · rw [hsame]
  · simp [hroom] at hfull
  · simp [hroom] at hfull

theorem erase_insert_of_full (hcap : c.capacity ≠ 0) (hfull : c.isFullFor k = true) :
    Fields.erase k (c.insert now k a).entries = (c.makeRoom now k).entries := by
  rw [erase_insert hcap]
  refine Fields.erase_of_not_mem fun hmem => ?_
  have hkeys : k ∈ Fields.keys c.entries := ((c.makeRoom_sublist now k).map Prod.fst).subset hmem
  exact isFullFor_iff.mp hfull (.inl (Fields.has_eq_true_iff.mpr hkeys))

theorem makeRoom_of_expired (hc : c.Reachable) (hcap : c.capacity ≠ 0)
    (hfull : c.isFullFor k = true) (hexpired : c.HasExpired now) :
    c.makeRoom now k = c.dropExpired now := by
  rcases makeRoom_cases hcap hc.size_le now k with ⟨hroom, -⟩ | ⟨-, -, hsame, -⟩ | ⟨-, hlive, -⟩
  · simp [hfull] at hroom
  · exact hsame
  · exact absurd hexpired hlive

theorem makeRoom_of_live (hc : c.Reachable) (hcap : c.capacity ≠ 0) (hfull : c.isFullFor k = true)
    (hlive : ¬ c.HasExpired now) : ∃ l, c.IsOldest l ∧ c.makeRoom now k = c.remove l := by
  rcases makeRoom_cases hcap hc.size_le now k with ⟨hroom, -⟩ | ⟨-, hexpired, -⟩ | ⟨-, -, hgone⟩
  · simp [hfull] at hroom
  · exact absurd hexpired hlive
  · exact hgone

/-- Another entry that survives is the one that was there. -/
theorem get?_entries_insert (hc : c.Reachable) (hl : l ≠ k)
    (h : l ∈ Fields.keys (c.insert now k a).entries) :
    Fields.get? l (c.insert now k a).entries = Fields.get? l c.entries := by
  obtain ⟨⟨_, e⟩, he, rfl⟩ := List.mem_map.mp h
  rw [(sorted_insert hc.sorted now k a).get?_of_mem he]
  rcases mem_of_mem_insert he with ⟨heq, -⟩ | hold
  · exact absurd heq hl
  · exact (hc.sorted.get?_of_mem hold).symm

/-- An entry that is given up had expired, or it is an oldest one and all are live. -/
theorem lost_cases (hc : c.Reachable) (hcap : c.capacity ≠ 0) {e : Entry α}
    (he : (l, e) ∈ c.entries) (hlost : l ∉ Fields.keys (c.insert now k a).entries) :
    c.isFullFor k = true ∧
      (e.isExpired c.lifetime now = true ∨ ¬ c.HasExpired now ∧ c.IsOldest l) := by
  have hgone : (l, e) ∉ (c.makeRoom now k).entries := by
    intro hmem
    refine hlost ?_
    rw [insert, if_neg hcap]
    exact Fields.mem_keys_insert.mpr (.inr (List.mem_map_of_mem hmem))
  rcases makeRoom_cases hcap hc.size_le now k with
    ⟨-, hsame⟩ | ⟨hfull, -, hsame, -⟩ | ⟨hfull, hlive, m, hm, hsame⟩
  · rw [hsame] at hgone
    exact absurd he hgone
  · refine ⟨hfull, .inl ?_⟩
    rw [hsame] at hgone
    by_contra hlive
    exact hgone (List.mem_filter.mpr ⟨he, by simpa using hlive⟩)
  · refine ⟨hfull, .inr ⟨hlive, ?_⟩⟩
    rw [hsame] at hgone
    have heq : l = m := by
      by_contra hne
      exact hgone (List.mem_filter.mpr ⟨he, by simpa using hne⟩)
    exact heq ▸ hm

/-- A live value that is lost was one of the oldest in a cache that was full of live values. -/
theorem lost_live (hc : c.Reachable) (hcap : c.capacity ≠ 0) (hl : l ≠ k)
    (hlive : c.get? now l ≠ none) (hlost : (c.insert now k a).get? now l = none) :
    c.isFullFor k = true ∧ ¬ c.HasExpired now ∧ c.IsOldest l := by
  obtain ⟨b, hb⟩ := Option.ne_none_iff_exists'.mp hlive
  obtain ⟨e, he, -, hyoung⟩ := mem_of_get? hb
  have hgone : l ∉ Fields.keys (c.insert now k a).entries := by
    intro hmem
    have hsame : (c.insert now k a).get? now l = c.get? now l := by
      rw [get?, get?, get?_entries_insert hc hl hmem, lifetime_insert]
    exact hlive (hsame ▸ hlost)
  obtain ⟨hfull, hexpired | holdest⟩ := lost_cases hc hcap he hgone
  · exact absurd (of_decide_eq_true hexpired) hyoung
  · exact ⟨hfull, holdest⟩

end

/-- What writing a value takes away from the other entries. With room for it, nothing; else all that
has expired and no more, if anything has; else one entry, none being older. What is left is got as
before, and so is the new value; what was live and is lost was among the oldest of a cache that was
full of live entries. -/
theorem insert_gives_up {c : Expiring α} (hc : c.Reachable) (hcap : c.capacity ≠ 0) (now : Int)
    (k : String) (a : α) :
    (Fields.has k c.entries = true ∨ c.size < c.capacity →
        Fields.erase k (c.insert now k a).entries = Fields.erase k c.entries) ∧
      (¬ (Fields.has k c.entries = true ∨ c.size < c.capacity) → c.HasExpired now →
        Fields.erase k (c.insert now k a).entries =
          c.entries.filter fun f => !f.2.isExpired c.lifetime now) ∧
      (¬ (Fields.has k c.entries = true ∨ c.size < c.capacity) → ¬ c.HasExpired now →
        ∃ l, c.IsOldest l ∧
          Fields.erase k (c.insert now k a).entries = Fields.erase l c.entries ∧
          (Fields.erase l c.entries).length + 1 = c.size) ∧
      (∀ l ∈ Fields.keys (c.insert now k a).entries, l ≠ k →
        ∀ later, (c.insert now k a).get? later l = c.get? later l) ∧
      (0 < c.lifetime → (c.insert now k a).get? now k = some a) ∧
      (∀ l, l ≠ k → c.get? now l ≠ none → (c.insert now k a).get? now l = none →
        c.size = c.capacity ∧ ¬ c.HasExpired now ∧ c.IsOldest l) := by
  refine ⟨fun hroom => ?_, fun hfull hexpired => ?_, fun hfull hlive => ?_, ?_, ?_, ?_⟩
  · have hnot : c.isFullFor k = false := Bool.eq_false_iff.mpr fun h => isFullFor_iff.mp h hroom
    exact erase_insert_of_room hc hcap hnot
  · rw [erase_insert_of_full hcap (isFullFor_iff.mpr hfull),
      makeRoom_of_expired hc hcap (isFullFor_iff.mpr hfull) hexpired]
    rfl
  · obtain ⟨l, hl, hsame⟩ := makeRoom_of_live hc hcap (isFullFor_iff.mpr hfull) hlive
    refine ⟨l, hl, ?_, hc.sorted.length_erase_of_mem hl.mem_keys⟩
    rw [erase_insert_of_full hcap (isFullFor_iff.mpr hfull), hsame]
    rfl
  · intro l hmem hl later
    rw [get?, get?, get?_entries_insert hc hl hmem, lifetime_insert]
  · exact fun hlifetime => get?_insert_self c hcap hlifetime now k a
  · intro l hl hlive hlost
    obtain ⟨hfull, holdest⟩ := lost_live hc hcap hl hlive hlost
    exact ⟨Nat.le_antisymm hc.size_le (isFullFor_eq_true_iff.mp hfull).1, holdest⟩

/-- A cache that is full of two values, the older one under the greater key: while both are live an
oldest one goes, and once that has expired it alone. -/
theorem insert_gives_up_oldest :
    let c : Expiring Bool := ⟨10, 2, [("a", ⟨false, 4⟩), ("b", ⟨true, 0⟩)]⟩
    (∃ l, c.IsOldest l ∧
        Fields.erase "c" (c.insert 9 "c" true).entries = Fields.erase l c.entries) ∧
      Fields.erase "c" (c.insert 12 "c" true).entries = [("a", ⟨false, 4⟩)] ∧
      (c.insert 12 "c" true).get? 12 "c" = some true := by
  intro c
  have hc : c.Reachable :=
    ⟨10, 2, 0, [.insert "b" true, .clock 4, .insert "a" false], by rfl⟩
  have hfull : ¬ (Fields.has "c" c.entries = true ∨ c.size < c.capacity) := by decide +kernel
  have hlive : ¬ c.HasExpired 9 := by
    rintro ⟨f, hf, hold⟩
    rcases List.mem_cons.mp hf with rfl | hf
    · cases hold
    · rw [List.mem_singleton.mp hf] at hold
      cases hold
  have hexpired : c.HasExpired 12 := ⟨("b", ⟨true, 0⟩), by simp [c], rfl⟩
  have hcap : c.capacity ≠ 0 := by decide
  obtain ⟨-, -, holdest, -⟩ := insert_gives_up hc hcap 9 "c" true
  obtain ⟨-, hdrop, -, -, hnew, -⟩ := insert_gives_up hc hcap 12 "c" true
  obtain ⟨l, hl, herase, -⟩ := holdest hfull hlive
  exact ⟨⟨l, hl, herase⟩, hdrop hfull hexpired, hnew (by decide)⟩

end Expiring
end Switchboard
