import Switchboard.Proofs.Decimal.Digits
import Switchboard.Proofs.Path.Lens

/-! What a write leaves alone. Paths are compared as lists of segments, so first of all segments
that come from text name the same member only if they are the same. A write at one path is then
seen at another one that forks off only where an array on its way is made up with nulls. -/
namespace Switchboard

namespace Segment

/-- A segment as text gives it: an index of 64 bits, or a key that writes none. -/
def FromText : Segment → Prop
  | .key k => indexOf? k.toList = none
  | .index i => i < 0x10000000000000000

/-- The decimal text of an index is read as that index. -/
theorem indexOf?_toString {i : Nat} (h : i < 0x10000000000000000) :
    indexOf? (toString i).toList = some i := by
  have hdigits : (toString i).toList = Decimal.digitsOf i := by simp [Decimal.digitsOf]
  have hplus : ∀ s, Decimal.digitsOf i ≠ '+' :: s := by
    intro s hs
    have hall := Decimal.all_isDigit_digitsOf i
    rw [hs] at hall
    cases hall
  rw [hdigits, indexOf?, Decimal.natural?_digitsOf, Option.filter_some,
    if_pos (decide_eq_true h)]
  exact hplus

theorem FromText.name_injective {s t : Segment} (hs : s.FromText) (ht : t.FromText)
    (h : s.name = t.name) : s = t := by
  cases s with
  | key k =>
    cases t with
    | key l => exact congrArg key h
    | index j =>
      have hkey : k = toString j := h
      rw [FromText, hkey, indexOf?_toString ht] at hs
      cases hs
  | index i =>
    cases t with
    | key l =>
      have hkey : toString i = l := h
      rw [FromText, ← hkey, indexOf?_toString hs] at ht
      cases ht
    | index j => exact congrArg index (Decimal.toString_injective h)

theorem fromText_of_mem_ofText {s : List Char} {t : Segment} (h : t ∈ ofText s) : t.FromText := by
  unfold ofText at h
  split at h
  · rename_i i hi
    obtain ⟨-, hlt⟩ := Option.filter_eq_some_iff.mp hi
    rw [List.mem_singleton.mp h, FromText]
    simpa using hlt
  · rename_i hnone
    split at h
    · cases h
    · rw [List.mem_singleton.mp h, FromText, String.toList_ofList]
      exact hnone

end Segment

namespace Path

theorem fromText_of_mem_segments {inside : Bool} {current text : List Char} {s : Segment}
    (h : s ∈ segments inside current text) : s.FromText := by
  induction text generalizing inside current with
  | nil =>
    unfold segments at h
    split at h
    · exact Segment.fromText_of_mem_ofText h
    · exact Segment.fromText_of_mem_ofText h
  | cons c text ih =>
    have happend : ∀ {before after : List Segment}, s ∈ before ++ after →
        (s ∈ before → s.FromText) → (s ∈ after → s.FromText) → s.FromText :=
      fun hmem hbefore hafter => (List.mem_append.mp hmem).elim hbefore hafter
    unfold segments at h
    split at h
    · split at h
      · exact happend h Segment.fromText_of_mem_ofText ih
      · exact ih h
    · split at h
      · exact happend h Segment.fromText_of_mem_ofText ih
      · split at h
        · exact happend h Segment.fromText_of_mem_ofText ih
        · exact ih h

theorem fromText_of_mem_parse {text : String} {s : Segment} (h : s ∈ parse text) : s.FromText :=
  fromText_of_mem_segments h

/-- An array without an item at an index, or null, which gives way to an empty array. -/
def Lacks (j : Nat) : Json → Prop
  | .arr items => items.length ≤ j
  | .null => True
  | _ => False

section
variable {v doc : Json} {p q front : Path} {s t : Segment} {i j : Nat}

/-- A write to an index puts nulls into the items before it that were not there. -/
theorem set_of_lacks (hlt : j < i) (h : Lacks j doc) :
    step? doc (.index j) = none ∧
      ∃ items, (set v (.index i :: p) doc).1 = .arr items ∧ i < items.length ∧
        items[j]? = some .null := by
  have hwritten : ∀ (w : Json) (items : List Json), items.length ≤ j →
      i < (setItem w i items).length ∧ (setItem w i items)[j]? = some .null := by
    intro w items hshort
    rw [length_setItem, getElem?_setItem_of_ne w (Nat.ne_of_gt hlt), if_neg (Nat.not_lt.mpr hshort),
      if_pos (Nat.lt_succ_of_lt hlt)]
    exact ⟨by omega, rfl⟩
  rw [set_cons]
  cases doc with
  | null => exact ⟨rfl, setItem _ i [], rfl, hwritten _ [] (Nat.zero_le j)⟩
  | arr items =>
    exact ⟨List.getElem?_eq_none h, setItem _ i items, rfl, hwritten _ items h⟩
  | _ => cases h

theorem getElem?_setItem_of_ne_or (w : Json) (h : i ≠ j) (items : List Json) :
    (setItem w i items)[j]? = items[j]? ∨ j < i ∧ items.length ≤ j := by
  rw [getElem?_setItem_of_ne w h]
  split
  · exact .inl rfl
  · rename_i hshort
    have hle : items.length ≤ j := Nat.not_lt.mp hshort
    split
    · exact .inr ⟨by omega, hle⟩
    · exact .inl (List.getElem?_eq_none hle).symm

/-- What is put in the place of one segment does not reach that of another one, unless this is a
new item before it. -/
theorem step?_put_of_name_ne (w : Json) (haddr : addresses s doc = true) (hname : s.name ≠ t.name) :
    step? (put w s doc) t = step? doc t ∨
      ∃ i j, s = .index i ∧ t = .index j ∧ j < i ∧ Lacks j doc := by
  cases doc with
  | obj members =>
    left
    rw [put_obj, step?_obj, step?_obj, Fields.get?_insert_of_ne hname.symm]
  | arr items =>
    cases s with
    | key k => cases haddr
    | index i =>
      cases t with
      | key l => exact .inl rfl
      | index j =>
        have hij : i ≠ j := fun heq => hname (congrArg toString heq)
        exact (getElem?_setItem_of_ne_or w hij items).imp_right fun hnew => ⟨i, j, rfl, rfl, hnew⟩
  | _ => cases s <;> cases haddr

/-- A write in the place of one segment does not reach that of another one, unless this is a new
item before it. -/
theorem step?_set_of_name_ne (hname : s.name ≠ t.name) :
    step? (set v (s :: p) doc).1 t = step? doc t ∨
      ∃ i j, s = .index i ∧ t = .index j ∧ j < i ∧ Lacks j doc := by
  rw [set_cons]
  split
  · rename_i haddr
    have hput := step?_put_of_name_ne (set v p (slot s (base s doc))).1 haddr hname
    cases doc with
    | null =>
      -- The new container has nothing in it, as null has not.
      have hempty : step? (base s .null) t = step? .null t := by
        cases s <;> cases t <;> rfl
      rw [hempty] at hput
      exact hput.imp_right fun ⟨i, j, hs, ht, hlt, _⟩ => ⟨i, j, hs, ht, hlt, trivial⟩
    | _ => exact hput
  · exact .inl rfl

theorem get?_null (p : Path) : (get? p .null).getD .null = .null := by
  cases p with
  | nil => rfl
  | cons s p => cases s <;> rfl

/-- A write finds behind a segment what is read there. -/
theorem getD_get?_cons (s : Segment) (p : Path) (doc : Json) :
    (get? (s :: p) doc).getD .null = (get? p (slot s (base s doc))).getD .null := by
  rw [get?]
  cases hstep : step? doc s with
  | some x => rw [base_of_step? hstep, slot_of_step? x hstep, Option.bind_some]
  | none => rw [slot_base_of_step?_eq_none hstep, get?_null, Option.bind_none, Option.getD_none]

/-- At the end of a part of its path a write leaves what the rest of it makes there, unless it has
been stopped on the way. -/
theorem get?_set_append (v : Json) (front p : Path) (doc : Json) :
    get? front (set v (front ++ p) doc).1 = some (set v p ((get? front doc).getD .null)).1 ∨
      get? front (set v (front ++ p) doc).1 = none ∧ get? front doc = none := by
  induction front generalizing doc with
  | nil => exact .inl rfl
  | cons s front ih =>
    rw [List.cons_append, set_cons]
    split
    · rename_i haddr
      rw [getD_get?_cons, get?, step?_put_self _ haddr, Option.bind_some]
      refine (ih _).imp_right fun hstop => ⟨hstop.1, ?_⟩
      rw [get?]
      cases hstep : step? doc s with
      | some x =>
        rw [base_of_step? hstep, slot_of_step? x hstep] at hstop
        exact hstop.2
      | none => rfl
    · rename_i haddr
      have hstep : step? doc s = none := by
        refine Option.eq_none_iff_forall_ne_some.mpr fun x hx => haddr ?_
        rw [base_of_step? hx]
        exact addresses_of_step? hx
      right
      rw [get?, hstep]
      exact ⟨rfl, rfl⟩

/-- Both paths have a segment where they first differ. -/
def Forks (p q : Path) : Prop :=
  ∃ front s t p' q', s ≠ t ∧ p = front ++ s :: p' ∧ q = front ++ t :: q'

/-- The way of `p` leads to an index of an array that is made up with nulls for it, or is made and
made up with nulls, and `q` leads to one of them. -/
def MadeUp (p q : Path) (before after : Json) : Prop :=
  ∃ front p' i j, p = front ++ .index i :: p' ∧ q = front ++ [.index j] ∧ j < i ∧
    Lacks j ((get? front before).getD .null) ∧
    ∃ items, get? front after = some (.arr items) ∧ i < items.length

theorem get?_cons_getD (s : Segment) (p : Path) (o : Option Json) :
    get? (s :: p) (o.getD .null) = o.bind (get? (s :: p)) := by
  cases o with
  | none => cases s <;> rfl
  | some x => rfl

/-- What a write makes up is null and was not there. -/
theorem MadeUp.reads (h : MadeUp p q doc (set v p doc).1) :
    get? q doc = none ∧ get? q (set v p doc).1 = some .null := by
  obtain ⟨front, p', i, j, rfl, rfl, hlt, hlacks, items, hafter, -⟩ := h
  obtain ⟨hnone, new, hnew, -, hnull⟩ := set_of_lacks (v := v) (p := p') hlt hlacks
  rcases get?_set_append v front (.index i :: p') doc with hset | ⟨hstop, -⟩
  · rw [get?_append, get?_append, ← get?_cons_getD, get?, hnone, hset, hnew]
    exact ⟨rfl, congrArg (Option.bind · (get? [])) hnull⟩
  · rw [hstop] at hafter
    cases hafter

/-- Where a path forks off that of a write, all is as it was, save what is made up. -/
theorem get?_set_of_forks (hfork : Forks p q) (hp : ∀ s ∈ p, s.FromText)
    (hq : ∀ t ∈ q, t.FromText) (h : ¬ MadeUp p q doc (set v p doc).1) :
    get? q (set v p doc).1 = get? q doc := by
  obtain ⟨front, s, t, p', q', hne, rfl, rfl⟩ := hfork
  have hname : s.name ≠ t.name := fun heq =>
    hne ((hp s (by simp)).name_injective (hq t (by simp)) heq)
  rw [get?_append, get?_append]
  rcases get?_set_append v front (s :: p') doc with hset | ⟨hstop, hnone⟩
  · rw [hset, Option.bind_some, ← get?_cons_getD, get?, get?]
    rcases step?_set_of_name_ne hname with hsame | ⟨i, j, rfl, rfl, hlt, hlacks⟩
    · rw [hsame]
    · obtain ⟨hnone, items, hitems, hlen, hnull⟩ := set_of_lacks (v := v) (p := p') hlt hlacks
      cases q' with
      | nil =>
        rw [hitems] at hset
        exact absurd ⟨front, p', i, j, rfl, rfl, hlt, hlacks, items, hset, hlen⟩ h
      | cons u q' =>
        have hread : step? (set v (.index i :: p') ((get? front doc).getD .null)).1 (.index j) =
            some .null := by
          rw [hitems]
          exact hnull
        rw [hread, hnone]
        cases u <;> rfl
  · rw [hstop, hnone]

end

/-- A write leaves alone whatever is read at a path that forks off its own. The only exception is an
item that was not there and is a null now, for which an array on the way of the write is made up. No
key that text gives writes an index, so a key and an index never name the same member. -/
theorem write_leaves_alone (doc v : Json) (p q : String) (h : Forks (parse p) (parse q)) :
    (¬ MadeUp (parse p) (parse q) doc (set v (parse p) doc).1 →
        get? (parse q) (set v (parse p) doc).1 = get? (parse q) doc) ∧
      (MadeUp (parse p) (parse q) doc (set v (parse p) doc).1 →
        get? (parse q) doc = none ∧ get? (parse q) (set v (parse p) doc).1 = some .null) ∧
      (∀ k, .key k ∈ parse q → Segment.indexOf? k.toList = none) ∧
      (∀ s ∈ parse p, ∀ t ∈ parse q, s ≠ t → s.name ≠ t.name) :=
  ⟨get?_set_of_forks h (fun _ => fromText_of_mem_parse) fun _ => fromText_of_mem_parse,
    MadeUp.reads, fun _ hk => fromText_of_mem_parse hk, fun _ hs _ ht hne hname =>
      hne ((fromText_of_mem_parse hs).name_injective (fromText_of_mem_parse ht) hname)⟩

/-- Both indexes of an array that is made up to a fourth item: one of an item that was there, and
one, written like a key, of a new null. -/
theorem write_leaves_alone_padded :
    get? (parse "a[0]") (set (.bool false) (parse "a[+3].b") (.obj [("a", .arr [.str "x"])])).1 =
        some (.str "x") ∧
      get? (parse "$.a['01']") (.obj [("a", .arr [.str "x"])]) = none ∧
      get? (parse "$.a['01']")
        (set (.bool false) (parse "a[+3].b") (.obj [("a", .arr [.str "x"])])).1 = some .null := by
  have hp : parse "a[+3].b" = [.key "a", .index 3, .key "b"] := by decide +kernel
  have hq : parse "a[0]" = [.key "a", .index 0] := by decide +kernel
  have hr : parse "$.a['01']" = [.key "a", .index 1] := by decide +kernel
  have hafter : (set (.bool false) (parse "a[+3].b") (.obj [("a", .arr [.str "x"])])).1 =
      .obj [("a", .arr [.str "x", .null, .null, .obj [("b", .bool false)]])] := by
    rw [hp]
    rfl
  have hold : ¬ MadeUp (parse "a[+3].b") (parse "a[0]") (.obj [("a", .arr [.str "x"])])
      (set (.bool false) (parse "a[+3].b") (.obj [("a", .arr [.str "x"])])).1 := by
    rintro ⟨front, -, i, j, -, hfront, -, hlacks, -⟩
    rw [hq] at hfront
    have hsplit : [Segment.key "a"] ++ [.index 0] = front ++ [.index j] := hfront
    obtain ⟨rfl, hj⟩ := List.append_inj' hsplit rfl
    cases hj
    exact absurd hlacks (Nat.not_succ_le_zero 0)
  have hnew : MadeUp (parse "a[+3].b") (parse "$.a['01']") (.obj [("a", .arr [.str "x"])])
      (set (.bool false) (parse "a[+3].b") (.obj [("a", .arr [.str "x"])])).1 := by
    rw [hafter]
    exact ⟨[.key "a"], [.key "b"], 3, 1, hp, hr, by decide, Nat.le_refl 1,
      [.str "x", .null, .null, .obj [("b", .bool false)]], rfl, by decide⟩
  have hforkq : Forks (parse "a[+3].b") (parse "a[0]") :=
    ⟨[.key "a"], .index 3, .index 0, [.key "b"], [], by decide, hp, hq⟩
  have hforkr : Forks (parse "a[+3].b") (parse "$.a['01']") :=
    ⟨[.key "a"], .index 3, .index 1, [.key "b"], [], by decide, hp, hr⟩
  refine ⟨?_, (write_leaves_alone _ (.bool false) _ _ hforkr).2.1 hnew⟩
  rw [(write_leaves_alone _ (.bool false) _ _ hforkq).1 hold, hq]
  rfl

end Path
end Switchboard
