import Mathlib.Data.List.Induction
import Switchboard.Proofs.Expiring

/-! A cache in use. Its operations follow each other in any order, and its clock may be set forwards
and backwards in between. What is got is what was written last, as long as that is not too old, and
no more is stored than the capacity. -/
namespace Switchboard

namespace Expiring
variable {α : Type}

theorem oldest?_isSome {es : Fields (Entry α)} (h : es ≠ []) : (oldest? es).isSome = true := by
  cases es with
  | nil => exact absurd rfl h
  | cons e es =>
    unfold oldest?
    split
    · split <;> rfl
    · rfl

/-- What is found as the oldest entry is one, and none is older. -/
theorem oldest?_eq_some {es : Fields (Entry α)} {k : String} {t : Int}
    (h : oldest? es = some (k, t)) :
    (∃ e, (k, e) ∈ es ∧ e.since = t) ∧ ∀ f ∈ es, t ≤ f.2.since := by
  induction es generalizing k t with
  | nil => cases h
  | cons e es ih =>
    obtain ⟨l, e⟩ := e
    unfold oldest? at h
    cases hrest : oldest? es with
    | none =>
      have hnil : es = [] := by
        by_contra hne
        have hsome := oldest?_isSome hne
        rw [hrest] at hsome
        cases hsome
      rw [hrest] at h
      cases h
      simp [hnil]
    | some o =>
      obtain ⟨m, s⟩ := o
      obtain ⟨⟨d, hd, hs⟩, hleast⟩ := ih hrest
      rw [hrest] at h
      dsimp only at h
      split at h
      · rename_i hlt
        cases h
        exact ⟨⟨d, List.mem_cons_of_mem _ hd, hs⟩,
          List.forall_mem_cons.mpr ⟨Int.le_of_lt hlt, hleast⟩⟩
      · rename_i hle
        cases h
        refine ⟨⟨e, List.mem_cons_self, rfl⟩, List.forall_mem_cons.mpr ⟨Int.le_refl _, ?_⟩⟩
        exact fun f hf => Int.le_trans (Int.not_lt.mp hle) (hleast f hf)

/-- A key whose entry is as old as any other one. -/
def IsOldest (c : Expiring α) (k : String) : Prop :=
  ∃ e, (k, e) ∈ c.entries ∧ ∀ f ∈ c.entries, e.since ≤ f.2.since

theorem IsOldest.mem_keys {c : Expiring α} {k : String} (h : c.IsOldest k) :
    k ∈ Fields.keys c.entries := by
  obtain ⟨e, he, -⟩ := h
  exact List.mem_map_of_mem he

theorem dropOldest_eq_remove {c : Expiring α} (h : c.entries ≠ []) :
    ∃ k, c.IsOldest k ∧ c.dropOldest = c.remove k := by
  obtain ⟨⟨k, t⟩, hk⟩ := Option.isSome_iff_exists.mp (oldest?_isSome h)
  obtain ⟨⟨e, he, rfl⟩, hleast⟩ := oldest?_eq_some hk
  refine ⟨k, ⟨e, he, hleast⟩, ?_⟩
  unfold dropOldest
  rw [hk]
  rfl

/-- An entry of the cache has reached the lifetime. -/
def HasExpired (c : Expiring α) (now : Int) : Prop :=
  ∃ f ∈ c.entries, f.2.isExpired c.lifetime now = true

theorem isFullFor_eq_true_iff {c : Expiring α} {k : String} :
    c.isFullFor k = true ↔ c.capacity ≤ c.size ∧ Fields.has k c.entries = false := by
  simp [isFullFor, size]

/-- Room is made only where there is none: by dropping what has expired, and if nothing has by
removing an oldest entry. -/
theorem makeRoom_cases {c : Expiring α} (hcap : c.capacity ≠ 0) (hsize : c.size ≤ c.capacity)
    (now : Int) (k : String) :
    c.isFullFor k = false ∧ c.makeRoom now k = c ∨
      c.isFullFor k = true ∧ c.HasExpired now ∧ c.makeRoom now k = c.dropExpired now ∧
        (c.dropExpired now).size < c.capacity ∨
      c.isFullFor k = true ∧ ¬ c.HasExpired now ∧
        ∃ l, c.IsOldest l ∧ c.makeRoom now k = c.remove l := by
  unfold makeRoom
  by_cases hfull : c.isFullFor k = true
  · rw [if_pos hfull]
    by_cases hexpired : c.HasExpired now
    · obtain ⟨f, hf, hold⟩ := hexpired
      have hlt : (c.dropExpired now).size < c.capacity := by
        have hfewer : (c.dropExpired now).size < c.size :=
          List.length_filter_lt_length_iff_exists.mpr ⟨f, hf, by simp [hold]⟩
        omega
      have hroom : (c.dropExpired now).isFullFor k ≠ true := fun h =>
        Nat.not_le.mpr hlt (isFullFor_eq_true_iff.mp h).1
      rw [if_neg hroom]
      exact .inr (.inl ⟨hfull, ⟨f, hf, hold⟩, rfl, hlt⟩)
    · have hsame : c.dropExpired now = c := by
        unfold dropExpired
        rw [List.filter_eq_self.mpr fun f hf => by
          simpa using fun hold => hexpired ⟨f, hf, hold⟩]
      have hne : c.entries ≠ [] := by
        intro hnil
        have hzero : c.size = 0 := congrArg List.length hnil
        have hstored := (isFullFor_eq_true_iff.mp hfull).1
        omega
      rw [hsame, if_pos hfull]
      exact .inr (.inr ⟨hfull, hexpired, dropOldest_eq_remove hne⟩)
  · rw [if_neg hfull]
    exact .inl ⟨by simpa using hfull, rfl⟩

/-- Writing keeps to the capacity. -/
theorem size_insert_le {c : Expiring α} (hs : Fields.Sorted c.entries) (hsize : c.size ≤ c.capacity)
    (now : Int) (k : String) (a : α) : (c.insert now k a).size ≤ c.capacity := by
  unfold insert
  split
  · exact hsize
  · rename_i hcap
    show (Fields.insert k _ (c.makeRoom now k).entries).length ≤ c.capacity
    have hone := Fields.length_insert_le k (⟨a, now⟩ : Entry α) (c.makeRoom now k).entries
    rcases makeRoom_cases hcap hsize now k with
      ⟨hroom, hsame⟩ | ⟨-, -, hsame, hlt⟩ | ⟨-, -, l, hl, hsame⟩
    · rw [hsame] at hone ⊢
      by_cases hhas : Fields.has k c.entries = true
      · rw [hs.length_insert_of_has hhas]
        exact hsize
      · have hlt : ¬ c.capacity ≤ c.size := fun hle => by
          rw [isFullFor_eq_true_iff.mpr ⟨hle, by simpa using hhas⟩] at hroom
          cases hroom
        unfold size at hlt
        omega
    · rw [hsame] at hone ⊢
      exact Nat.le_trans hone hlt
    · have hfewer : (c.remove l).entries.length + 1 = c.size := hs.length_erase_of_mem hl.mem_keys
      rw [hsame] at hone ⊢
      omega

/-- What is done with a cache, or happens to its clock. -/
inductive Move (α : Type) where
  | insert (k : String) (a : α)
  | get (k : String)
  | remove (k : String)
  | clear
  | clock (now : Int)

/-- What was written for the key before says nothing any more. -/
def Move.Ends (k : String) : Move α → Prop
  | insert l _ => l = k
  | remove l => l = k
  | clear => True
  | get _ => False
  | clock _ => False

/-- A cache and the time of its clock. -/
structure Clocked (α : Type) where
  now : Int
  cache : Expiring α

namespace Clocked

def start (lifetime capacity : Nat) (now : Int) : Clocked α := ⟨now, .empty lifetime capacity⟩

/-- The value that is got for a key. -/
def get? (x : Clocked α) (k : String) : Option α := x.cache.get? x.now k

def next (x : Clocked α) : Move α → Clocked α
  | .insert k a => { x with cache := x.cache.insert x.now k a }
  | .get _ => x
  | .remove k => { x with cache := x.cache.remove k }
  | .clear => { x with cache := x.cache.clear }
  | .clock now => { x with now }

def run (x : Clocked α) (moves : List (Move α)) : Clocked α := moves.foldl next x

@[simp] theorem run_concat (x : Clocked α) (moves : List (Move α)) (move : Move α) :
    x.run (moves ++ [move]) = (x.run moves).next move := by simp [run]

end Clocked

/-- From `x` on, the last move that concerns the key writes this value for it, at this time. -/
def LastWritten (x : Clocked α) (moves : List (Move α)) (k : String) (a : α) (time : Int) : Prop :=
  ∃ before after, moves = before ++ .insert k a :: after ∧ (∀ move ∈ after, ¬ move.Ends k) ∧
    (x.run before).now = time

theorem LastWritten.concat {x : Clocked α} {moves : List (Move α)} {k : String} {a : α}
    {time : Int} (h : LastWritten x moves k a time) {move : Move α} (hmove : ¬ move.Ends k) :
    LastWritten x (moves ++ [move]) k a time := by
  obtain ⟨before, after, rfl, hafter, htime⟩ := h
  refine ⟨before, after ++ [move], by simp, ?_, htime⟩
  intro other hother
  rcases List.mem_append.mp hother with hother | hother
  · exact hafter other hother
  · rwa [List.mem_singleton.mp hother]

/-- What is stored after some moves: no more than the capacity, and for each key what was written
for it last, dated when it was written. -/
structure Follows (lifetime capacity : Nat) (now : Int) (moves : List (Move α)) (c : Expiring α) :
    Prop where
  lifetime_eq : c.lifetime = lifetime
  capacity_eq : c.capacity = capacity
  size_le : c.size ≤ capacity
  sorted : Fields.Sorted c.entries
  source : ∀ k e, (k, e) ∈ c.entries →
    LastWritten (.start lifetime capacity now) moves k e.value e.since

namespace Follows
variable {lifetime capacity : Nat} {now : Int} {moves : List (Move α)} {c : Expiring α}

theorem empty (lifetime capacity : Nat) (now : Int) :
    Follows lifetime capacity now ([] : List (Move α)) (.empty lifetime capacity) where
  lifetime_eq := rfl
  capacity_eq := rfl
  size_le := Nat.zero_le capacity
  sorted := .nil
  source := by
    intro k e h
    cases h

/-- Fewer entries, and none that the move ends. -/
theorem restrict (h : Follows lifetime capacity now moves c) {d : Expiring α} {move : Move α}
    (hlifetime : d.lifetime = c.lifetime) (hcapacity : d.capacity = c.capacity)
    (hsub : d.entries.Sublist c.entries) (hmove : ∀ k e, (k, e) ∈ d.entries → ¬ move.Ends k) :
    Follows lifetime capacity now (moves ++ [move]) d where
  lifetime_eq := hlifetime.trans h.lifetime_eq
  capacity_eq := hcapacity.trans h.capacity_eq
  size_le := Nat.le_trans hsub.length_le h.size_le
  sorted := List.Pairwise.sublist hsub h.sorted
  source := fun k e he => (h.source k e (hsub.subset he)).concat (hmove k e he)

theorem insert (h : Follows lifetime capacity now moves c) (k : String) (a : α) :
    Follows lifetime capacity now (moves ++ [.insert k a])
      (c.insert ((Clocked.start lifetime capacity now : Clocked α).run moves).now k a) where
  lifetime_eq := (c.lifetime_insert _ k a).trans h.lifetime_eq
  capacity_eq := (c.capacity_insert _ k a).trans h.capacity_eq
  size_le := by
    have hsize := h.size_le
    rw [← h.capacity_eq] at hsize ⊢
    exact size_insert_le h.sorted hsize _ k a
  sorted := sorted_insert h.sorted _ k a
  source := by
    intro l e he
    by_cases hl : l = k
    · subst hl
      have hcap : c.capacity ≠ 0 := by
        intro hzero
        have hsize := h.size_le
        rw [← h.capacity_eq, hzero] at hsize
        have hnil : c.entries = [] := List.eq_nil_of_length_eq_zero (Nat.le_zero.mp hsize)
        rw [Expiring.insert, if_pos hzero, hnil] at he
        cases he
      obtain rfl := eq_of_mem_insert_self h.sorted hcap he
      exact ⟨moves, [], rfl, by simp, rfl⟩
    · rcases mem_of_mem_insert he with ⟨heq, -⟩ | hold
      · exact absurd heq hl
      · exact (h.source l e hold).concat (Ne.symm hl)

/-- Every move is followed. -/
theorem next (h : Follows lifetime capacity now moves
      ((Clocked.start lifetime capacity now).run moves).cache) (move : Move α) :
    Follows lifetime capacity now (moves ++ [move])
      ((Clocked.start lifetime capacity now).run (moves ++ [move])).cache := by
  rw [Clocked.run_concat]
  cases move with
  | insert k a => exact h.insert k a
  | get k => exact h.restrict rfl rfl (.refl _) fun _ _ _ => id
  | remove k =>
    refine h.restrict rfl rfl List.filter_sublist fun l e he => ?_
    have hne : l ≠ k := by simpa using (List.mem_filter.mp he).2
    exact Ne.symm hne
  | clear => exact h.restrict rfl rfl (List.nil_sublist _) fun _ _ he => by cases he
  | clock now => exact h.restrict rfl rfl (.refl _) fun _ _ _ => id

theorem run (lifetime capacity : Nat) (now : Int) (moves : List (Move α)) :
    Follows lifetime capacity now moves
      ((Clocked.start lifetime capacity now).run moves).cache := by
  induction moves using List.reverseRecOn with
  | nil => exact .empty lifetime capacity now
  | append_singleton moves move ih => exact ih.next move

end Follows

/-- Whatever has been done with a cache, a value that is got for a key is the one that was written
for it last, less long ago than the lifetime; no more is stored than the capacity; and what has just
been written is got, unless nothing can be kept. -/
theorem run_gives_last (lifetime capacity : Nat) (now : Int) (moves : List (Move α)) :
    (∀ k a, ((Clocked.start lifetime capacity now).run moves).get? k = some a →
      ∃ time, LastWritten (.start lifetime capacity now) moves k a time ∧
        ¬ (lifetime : Int) ≤ ((Clocked.start lifetime capacity now : Clocked α).run moves).now -
          time) ∧
    ((Clocked.start lifetime capacity now).run moves).cache.size ≤ capacity ∧
    (0 < lifetime → 0 < capacity → ∀ k a,
      ((Clocked.start lifetime capacity now).run (moves ++ [.insert k a])).get? k = some a) := by
  have h := Follows.run lifetime capacity now moves
  refine ⟨fun k a hget => ?_, h.size_le, fun hlifetime hcapacity k a => ?_⟩
  · obtain ⟨e, he, rfl, hlive⟩ := mem_of_get? hget
    rw [h.lifetime_eq] at hlive
    exact ⟨e.since, h.source k e he, hlive⟩
  · have hl : 0 < ((Clocked.start lifetime capacity now).run moves).cache.lifetime := by
      rwa [h.lifetime_eq]
    have hc : ((Clocked.start lifetime capacity now).run moves).cache.capacity ≠ 0 := by
      rw [h.capacity_eq]
      omega
    rw [Clocked.run_concat]
    exact get?_insert_self _ hc hl _ k a

/-- A cache for one value, whose clock is set back: what it had is driven out, and what drove it out
is live. -/
theorem run_gives_last_driven_out :
    let moves : List (Move Bool) :=
      [.insert "a" false, .clock 20, .insert "b" true, .get "a", .clock 5]
    ((Clocked.start 10 1 0).run moves).get? "b" = some true ∧
      (∃ time, LastWritten (.start 10 1 0) moves "b" true time ∧
        ¬ ((10 : Nat) : Int) ≤ ((Clocked.start 10 1 0 : Clocked Bool).run moves).now - time) ∧
      ((Clocked.start 10 1 0).run moves).cache.size ≤ 1 ∧
      ((Clocked.start 10 1 0).run (moves ++ [.insert "c" false])).get? "c" = some false := by
  intro moves
  have hget : ((Clocked.start 10 1 0).run moves).get? "b" = some true := by decide +kernel
  obtain ⟨hlast, hsize, hnew⟩ := run_gives_last 10 1 0 moves
  exact ⟨hget, hlast "b" true hget, hsize, hnew (by decide) (by decide) "c" false⟩

end Expiring
end Switchboard
