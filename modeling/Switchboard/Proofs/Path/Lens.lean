import Switchboard.Proofs.Path.Writes

/-! Reading and writing at one path: what stops a write and what it leaves then, and the three laws
that tie what is read to what is written. -/
namespace Switchboard.Path

/-- The walk along the path stops at `s`: what it meets there is in the document, is not null and
has no place for `s`. -/
def BlockedAt (s : Segment) (p : Path) (doc : Json) : Prop :=
  ∃ before after v, p = before ++ s :: after ∧ get? before doc = some v ∧ v.isNull = false ∧
    addresses s v = false

section
variable {v w doc : Json} {p : Path} {s t : Segment}

theorem not_blockedAt_nil : ¬ BlockedAt t [] doc := by
  rintro ⟨before, after, v, hp, -⟩
  exact List.append_ne_nil_of_right_ne_nil before (List.cons_ne_nil t after) hp.symm

/-- A walk stops at its first segment or goes on from what that addresses. -/
theorem blockedAt_cons : BlockedAt t (s :: p) doc ↔
    s = t ∧ doc.isNull = false ∧ addresses s doc = false ∨
      ∃ x, step? doc s = some x ∧ BlockedAt t p x := by
  constructor
  · rintro ⟨before, after, v, hp, hv, hstop⟩
    cases before with
    | nil =>
      obtain ⟨rfl, -⟩ := List.cons.inj hp
      cases hv
      exact .inl ⟨rfl, hstop⟩
    | cons u before =>
      obtain ⟨rfl, rfl⟩ := List.cons.inj hp
      obtain ⟨x, hx, hv⟩ := Option.bind_eq_some_iff.mp hv
      exact .inr ⟨x, hx, before, after, v, rfl, hv, hstop⟩
  · rintro (⟨rfl, hstop⟩ | ⟨x, hx, before, after, v, rfl, hv, hstop⟩)
    · exact ⟨[], p, doc, rfl, rfl, hstop⟩
    · exact ⟨s :: before, after, v, rfl, by rw [get?, hx]; exact hv, hstop⟩

/-- Where nothing is yet, nothing stops a walk. -/
theorem not_blockedAt_null : ¬ BlockedAt t p .null := by
  cases p with
  | nil => exact not_blockedAt_nil
  | cons s p =>
    rw [blockedAt_cons]
    rintro (⟨-, hnull, -⟩ | ⟨x, hx, -⟩)
    · cases hnull
    · cases s <;> cases hx

/-- A write fails exactly where its walk stops, and tells the segment. -/
theorem set_snd_eq_some_iff {e : WriteError} :
    (set v p doc).2 = some e ↔ ∃ t, BlockedAt t p doc ∧ e = refusal t := by
  induction p generalizing doc with
  | nil => exact iff_of_false nofun fun ⟨t, h, _⟩ => not_blockedAt_nil h
  | cons s p ih =>
    rw [set_cons]
    by_cases haddr : addresses s (base s doc) = true
    · rw [if_pos haddr, ih]
      -- What the walk goes on from is in the document, or it is null and stops nothing.
      refine exists_congr fun t => and_congr_left fun _ => ?_
      rw [blockedAt_cons]
      cases hstep : step? doc s with
      | some x =>
        rw [base_of_step? hstep, slot_of_step? x hstep]
        simp [addresses_of_step? hstep]
      | none =>
        rw [slot_base_of_step?_eq_none hstep]
        refine iff_of_false not_blockedAt_null ?_
        rintro (⟨-, hnull, hstop⟩ | ⟨x, hx, -⟩)
        · rw [base, if_neg (by simp [hnull]), hstop] at haddr
          cases haddr
        · cases hx
    · have hnull : doc.isNull = false := by
        cases doc with
        | null => exact absurd (addresses_base_null s) haddr
        | _ => rfl
      have hbase : base s doc = doc := by rw [base, if_neg (by simp [hnull])]
      have hstop : addresses s doc = false := by rwa [hbase, Bool.not_eq_true] at haddr
      have hstep : ∀ x, step? doc s ≠ some x := by
        intro x hx
        rw [addresses_of_step? hx] at hstop
        cases hstop
      rw [if_neg haddr]
      simp [blockedAt_cons, hnull, hstop, hstep, eq_comm]

/-- The last of two writes at a path stays. -/
theorem set_set (v w : Json) (h : Open p doc) : set w p (set v p doc).1 = set w p doc := by
  induction p generalizing doc with
  | nil => rfl
  | cons s p ih =>
    have hput : ∀ x, addresses s (put x s (base s doc)) = true := by
      intro x
      rw [addresses_put]
      exact h.1
    rw [set_of_open_cons h, set_of_open_cons h, set_cons, base_of_addresses (hput _),
      if_pos (hput _), slot_put_self _ h.1, put_put, ih h.2]

/-- What is read can be written, and changes nothing. -/
theorem set_get? (hdoc : doc.Ordered) (h : get? p doc = some v) : set v p doc = (doc, none) := by
  induction p generalizing doc with
  | nil =>
    cases h
    rfl
  | cons s p ih =>
    obtain ⟨x, hx, hv⟩ := Option.bind_eq_some_iff.mp h
    have hslot : slot s doc = x := slot_of_step? x hx
    have hrest : set v p x = (x, none) := ih (hslot ▸ ordered_slot hdoc) hv
    rw [set_cons, base_of_step? hx, if_pos (addresses_of_step? hx), hslot, hrest,
      put_of_step? x (fun members hobj => (hobj ▸ hdoc).sorted) hx]

end

/-- A write that fails leaves the document as it was, and it fails exactly where the walk along the
path meets what is there, not null and without a place for the segment at hand. -/
theorem failed_write_changes_nothing {doc : Json} (hdoc : doc.Ordered) (path : String) (v : Json)
    (e : WriteError) :
    ((set v (parse path) doc).2 = some e → (set v (parse path) doc).1 = doc) ∧
      ((set v (parse path) doc).2 = some e ↔
        ∃ s, BlockedAt s (parse path) doc ∧ e = refusal s) :=
  ⟨set_fst_of_error hdoc, set_snd_eq_some_iff⟩

/-- The array is not padded for an index that is reached beyond a number. -/
theorem failed_write_changes_nothing_number :
    (set (.bool true) (parse "a[0].b[7]") (.obj [("a", .arr [.obj [("b", .str "c")]])])).2 =
        some (.notAnArray 7) ∧
      (set (.bool true) (parse "a[0].b[7]") (.obj [("a", .arr [.obj [("b", .str "c")]])])).1 =
        .obj [("a", .arr [.obj [("b", .str "c")]])] := by
  have hordered : Json.Ordered (.obj [("a", .arr [.obj [("b", .str "c")]])]) :=
    Json.ordered_normal (.obj [("a", .arr [.obj [("b", .str "c")]])])
  have hblocked : BlockedAt (.index 7) (parse "a[0].b[7]")
      (.obj [("a", .arr [.obj [("b", .str "c")]])]) :=
    ⟨[.key "a", .index 0, .key "b"], [], .str "c", by decide +kernel, rfl, rfl, rfl⟩
  obtain ⟨hsame, hiff⟩ := failed_write_changes_nothing hordered "a[0].b[7]" (.bool true)
    (.notAnArray 7)
  have hfails := hiff.mpr ⟨.index 7, hblocked, rfl⟩
  exact ⟨hfails, hsame hfails⟩

/-- What a write has written is read; a second write takes the place of the first; and what is read
is written without any change. -/
theorem lens_laws {doc : Json} (hdoc : doc.Ordered) (path : String) (v w : Json) :
    ((set v (parse path) doc).2 = none →
        get? (parse path) (set v (parse path) doc).1 = some v ∧
        set w (parse path) (set v (parse path) doc).1 = set w (parse path) doc ∧
        (set w (parse path) doc).2 = none) ∧
      (get? (parse path) doc = some v → set v (parse path) doc = (doc, none)) := by
  refine ⟨fun hwritten => ?_, set_get? hdoc⟩
  have hopen : Open (parse path) doc := set_snd_eq_none_iff.mp hwritten
  exact ⟨get?_set hopen, set_set v w hopen, set_snd_eq_none_iff.mpr hopen⟩

/-- An object keeps its decimal names, a null gives way to an array, and the array is padded. -/
theorem lens_laws_padded :
    set (.bool true) (parse "2[1]") (.obj [("2", .null)]) =
        (.obj [("2", .arr [.null, .bool true])], none) ∧
      get? (parse "2[1]") (.obj [("2", .arr [.null, .bool true])]) = some (.bool true) ∧
      set (.str "w") (parse "2[1]") (.obj [("2", .arr [.null, .bool true])]) =
        set (.str "w") (parse "2[1]") (.obj [("2", .null)]) ∧
      set .null (parse "['2']") (.obj [("2", .null)]) = (.obj [("2", .null)], none) := by
  have hordered : Json.Ordered (.obj [("2", .null)]) := Json.ordered_normal (.obj [("2", .null)])
  have hset : set (.bool true) (parse "2[1]") (.obj [("2", .null)]) =
      (.obj [("2", .arr [.null, .bool true])], none) := by rfl
  have hread : get? (parse "['2']") (.obj [("2", .null)]) = some .null := by rfl
  obtain ⟨hget, hput, -⟩ := (lens_laws hordered "2[1]" (.bool true) (.str "w")).1
    (congrArg Prod.snd hset)
  rw [hset] at hget hput
  exact ⟨hset, hget, hput, (lens_laws hordered "['2']" .null .null).2 hread⟩

end Switchboard.Path
