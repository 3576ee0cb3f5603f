import Switchboard.Proofs.Json.Ordered
import Switchboard.Proofs.Path.Slots

/-! Writes at paths: which of them succeed, that one that fails changes nothing, and that writes at
paths that part ways do not disturb each other. -/
namespace Switchboard.Path

/-- What a write finds on its way is null or has a place for the segment at hand. -/
def Open : Path → Json → Prop
  | [], _ => True
  | s :: p, doc => addresses s (base s doc) = true ∧ Open p (slot s (base s doc))

theorem open_null (p : Path) : Open p .null := by
  induction p with
  | nil => trivial
  | cons s p ih => exact ⟨addresses_base_null s, by rwa [slot_base_null]⟩

section
variable {v w doc : Json} {p q : Path} {s : Segment}

theorem set_of_open_cons (h : Open (s :: p) doc) :
    set v (s :: p) doc =
      (put (set v p (slot s (base s doc))).1 s (base s doc),
        (set v p (slot s (base s doc))).2) := by
  rw [set_cons, if_pos h.1]

/-- A write fails exactly where its way is not open. -/
theorem set_snd_eq_none_iff : (set v p doc).2 = none ↔ Open p doc := by
  induction p generalizing doc with
  | nil => exact iff_of_true rfl trivial
  | cons s p ih =>
    rw [set_cons, Open]
    by_cases h : addresses s (base s doc) = true
    · rw [if_pos h, ih]
      exact (and_iff_right h).symm
    · rw [if_neg h]
      exact iff_of_false nofun fun hopen => h hopen.1

/-- What has been written is read. -/
theorem get?_set (h : Open p doc) : get? p (set v p doc).1 = some v := by
  induction p generalizing doc with
  | nil => rfl
  | cons s p ih =>
    rw [set_of_open_cons h, get?, step?_put_self _ h.1]
    exact ih h.2

end

theorem ordered_slot {s : Segment} {c : Json} (h : c.Ordered) : (slot s c).Ordered := by
  unfold slot
  cases hs : step? c s with
  | none => exact .null
  | some v =>
    cases h with
    | arr hitems =>
      cases s with
      | key k => cases hs
      | index i => exact hitems v (List.mem_of_getElem? hs)
    | obj hsorted hmembers =>
      rw [step?_obj] at hs
      exact hmembers _ (Fields.mem_of_get? hs)
    | _ => cases s <;> cases hs

theorem ordered_setItem {v : Json} {items : List Json} (hv : v.Ordered)
    (hitems : ∀ w ∈ items, w.Ordered) (i : Nat) : ∀ w ∈ setItem v i items, w.Ordered := by
  intro w hw
  rcases List.mem_or_eq_of_mem_set hw with hw | rfl
  · rcases List.mem_append.mp hw with hw | hw
    · exact hitems w hw
    · rw [List.eq_of_mem_replicate hw]
      exact .null
  · exact hv

theorem ordered_put {v c : Json} (hv : v.Ordered) (hc : c.Ordered) (s : Segment) :
    (put v s c).Ordered := by
  cases hc with
  | obj hs hmembers =>
    rw [put_obj]
    refine .obj (hs.insert s.name v) fun e he => ?_
    rcases Fields.mem_of_mem_insert he with rfl | he
    · exact hv
    · exact hmembers e he
  | arr hitems =>
    cases s with
    | key k => exact .arr hitems
    | index i => exact .arr (ordered_setItem hv hitems i)
  | null => cases s <;> exact .null
  | bool b => cases s <;> exact .bool b
  | num n => cases s <;> exact .num n
  | str t => cases s <;> exact .str t

theorem ordered_base {doc : Json} (h : doc.Ordered) (s : Segment) : (base s doc).Ordered := by
  unfold base
  split
  · cases s with
    | key k => exact .obj .nil fun e he => by cases he
    | index i => exact .arr fun v hv => by cases hv
  · exact h

/-- Writes keep members in order. -/
theorem ordered_set {v doc : Json} (hv : v.Ordered) (hdoc : doc.Ordered) (p : Path) :
    (set v p doc).1.Ordered := by
  induction p generalizing doc with
  | nil => exact hv
  | cons s p ih =>
    rw [set_cons]
    split
    · exact ordered_put (ih (ordered_slot (ordered_base hdoc s))) (ordered_base hdoc s) s
    · exact hdoc

theorem ordered_of_get? {v doc : Json} {p : Path} (hdoc : doc.Ordered) (h : get? p doc = some v) :
    v.Ordered := by
  induction p generalizing doc with
  | nil =>
    cases h
    exact hdoc
  | cons s p ih =>
    obtain ⟨x, hx, hv⟩ := Option.bind_eq_some_iff.mp h
    exact ih (slot_of_step? x hx ▸ ordered_slot hdoc) hv

/-- A write that fails leaves the document as it was: it has made nothing on its way, since nothing
that it makes can stop it. -/
theorem set_fst_of_error {v doc : Json} {p : Path} {e : WriteError} (hdoc : doc.Ordered)
    (h : (set v p doc).2 = some e) : (set v p doc).1 = doc := by
  induction p generalizing doc with
  | nil => cases h
  | cons s p ih =>
    rw [set_cons] at h ⊢
    by_cases haddr : addresses s (base s doc) = true
    · rw [if_pos haddr] at h ⊢
      cases hstep : step? doc s with
      | none =>
        -- From null on every way is open.
        rw [slot_base_of_step?_eq_none hstep, set_snd_eq_none_iff.mpr (open_null p)] at h
        cases h
      | some x =>
        have hslot : slot s doc = x := slot_of_step? x hstep
        rw [base_of_step? hstep, hslot] at h ⊢
        rw [ih (hslot ▸ ordered_slot hdoc) h]
        exact put_of_step? x (fun members hobj => (hobj ▸ hdoc).sorted) hstep
    · rw [if_neg haddr]

/-- At the first place where the paths differ both have a segment, and these are both keys or both
indexes. -/
def Diverge : Path → Path → Prop
  | s :: p, t :: q => if s = t then Diverge p q else s.isKey = t.isKey
  | _, _ => False

instance decidableDiverge : (p q : Path) → Decidable (Diverge p q)
  | [], _ => isFalse id
  | _ :: _, [] => isFalse id
  | s :: p, t :: q =>
    have := decidableDiverge p q
    inferInstanceAs (Decidable (if s = t then Diverge p q else s.isKey = t.isKey))

/-- Paths part at once, or they have the first segment in common and part later. -/
theorem Diverge.cases {s t : Segment} {p q : Path} (h : Diverge (s :: p) (t :: q)) :
    s.Apart t ∨ s = t ∧ Diverge p q := by
  unfold Diverge at h
  split at h
  · rename_i heq
    exact .inr ⟨heq, h⟩
  · rename_i hne
    exact .inl ⟨hne, h⟩

theorem Diverge.isKey_eq {s t : Segment} {p q : Path} (h : Diverge (s :: p) (t :: q)) :
    s.isKey = t.isKey := by
  rcases h.cases with h | ⟨rfl, -⟩
  · exact h.2
  · rfl

theorem Diverge.symm {p q : Path} (h : Diverge p q) : Diverge q p := by
  induction p generalizing q with
  | nil => cases h
  | cons s p ih =>
    cases q with
    | nil => cases h
    | cons t q =>
      rcases h.cases with hapart | ⟨rfl, hrest⟩
      · unfold Diverge
        rw [if_neg (Ne.symm hapart.1)]
        exact hapart.2.symm
      · unfold Diverge
        rw [if_pos rfl]
        exact ih hrest

section
variable {w doc : Json} {p q : Path}

/-- The way of one write stays open after the other one. -/
theorem open_set_of_diverge (h : Diverge p q) (hp : Open p doc) (hq : Open q doc) :
    Open p (set w q doc).1 := by
  induction p generalizing q doc with
  | nil => trivial
  | cons s p ih =>
    cases q with
    | nil => cases h
    | cons t q =>
      rw [set_of_open_cons hq]
      rw [Open, base_eq_of_isKey h.isKey_eq] at hp
      have hs : addresses s (put (set w q (slot t (base t doc))).1 t (base t doc)) = true := by
        rw [addresses_put]
        exact hp.1
      rw [Open, base_of_addresses hs]
      refine ⟨hs, ?_⟩
      rcases h.cases with hapart | ⟨rfl, hrest⟩
      · rw [slot_put_of_apart _ hapart.symm]
        exact hp.2
      · rw [slot_put_self _ hq.1]
        exact ih hrest hp.2 hq.2

/-- What is read at one path is read there after a write at the other. -/
theorem get?_set_of_diverge {v : Json} (h : Diverge p q) (hp : get? p doc = some v)
    (hq : Open q doc) : get? p (set w q doc).1 = some v := by
  induction p generalizing q doc with
  | nil => cases h
  | cons s p ih =>
    cases q with
    | nil => cases h
    | cons t q =>
      obtain ⟨x, hx, hp⟩ := Option.bind_eq_some_iff.mp hp
      have hbase : base t doc = doc := by
        cases doc with
        | null => cases s <;> cases hx
        | _ => rfl
      rw [set_of_open_cons hq]
      rw [Open, hbase] at hq
      rw [hbase, get?]
      rcases h.cases with hapart | ⟨rfl, hrest⟩
      · rw [step?_put_of_apart _ x hapart.symm hx]
        exact hp
      · have hslot : slot s doc = x := slot_of_step? x hx
        rw [step?_put_self _ hq.1, Option.bind_some, hslot]
        exact ih hrest hp (hslot ▸ hq.2)

/-- Writes at paths that part are made in any order. -/
theorem set_comm_of_diverge (v w : Json) (h : Diverge p q) (hp : Open p doc) (hq : Open q doc) :
    (set v p (set w q doc).1).1 = (set w q (set v p doc).1).1 := by
  induction p generalizing q doc with
  | nil => cases h
  | cons s p ih =>
    cases q with
    | nil => cases h
    | cons t q =>
      have hbase : base s doc = base t doc := base_eq_of_isKey h.isKey_eq
      rw [set_of_open_cons (open_set_of_diverge h hp hq),
        set_of_open_cons (open_set_of_diverge h.symm hq hp), set_of_open_cons hp,
        set_of_open_cons hq, hbase]
      rw [Open, hbase] at hp
      rw [Open] at hq
      -- Both writes find the same container, and each finds one after the other.
      generalize base t doc = c at hp hq ⊢
      have hagain : ∀ x r u, base u (put x r c) = put x r c := by
        intro x r u
        have hs : addresses s (put x r c) = true := by rw [addresses_put, hp.1]
        exact base_of_addresses hs
      dsimp only
      rw [hagain, hagain]
      rcases h.cases with hapart | ⟨rfl, hrest⟩
      · rw [slot_put_of_apart _ hapart.symm, slot_put_of_apart _ hapart]
        exact put_comm _ _ _ hapart
      · rw [slot_put_self _ hq.1, slot_put_self _ hq.1, put_put, put_put, ih hrest hp.2 hq.2]

end
end Switchboard.Path
