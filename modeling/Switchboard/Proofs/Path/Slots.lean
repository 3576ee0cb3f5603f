import Switchboard.Path
import Switchboard.Proofs.Fields

/-! The place that one segment addresses in a container. A write goes down a path place by place, so
that what holds of whole paths comes from what holds of one place. -/
namespace Switchboard

theorem Decimal.toString_injective {i j : Nat} (h : toString i = toString j) : i = j := by
  have hdigits : Nat.toDigits 10 i = Nat.toDigits 10 j := by
    simpa using congrArg String.toList h
  have hread := congrArg (Nat.ofDigitChars 10 · 0) hdigits
  simpa only [Nat.ofDigitChars_ten_toDigits] using hread

namespace Segment

def isKey : Segment → Bool
  | key _ => true
  | index _ => false

/-- Different segments, both of them keys or both indexes. -/
def Apart (s t : Segment) : Prop := s ≠ t ∧ s.isKey = t.isKey

instance (s t : Segment) : Decidable (s.Apart t) := inferInstanceAs (Decidable (_ ∧ _))

theorem Apart.symm {s t : Segment} (h : s.Apart t) : t.Apart s := ⟨h.1.symm, h.2.symm⟩

/-- They name different members. -/
theorem Apart.name_ne {s t : Segment} (h : s.Apart t) : s.name ≠ t.name := by
  obtain ⟨hne, hkind⟩ := h
  intro hname
  cases s with
  | key k =>
    cases t with
    | key l => exact hne (congrArg key hname)
    | index j => cases hkind
  | index i =>
    cases t with
    | key l => cases hkind
    | index j => exact hne (congrArg index (Decimal.toString_injective hname))

theorem Apart.index_ne {i j : Nat} (h : (index i).Apart (index j)) : i ≠ j :=
  fun hij => h.1 (congrArg index hij)

end Segment

namespace Path

/-- Items with a value at an index, made up with nulls before it. -/
def setItem (v : Json) (i : Nat) (items : List Json) : List Json := (pad items (i + 1)).set i v

theorem getElem?_pad (items : List Json) (n j : Nat) :
    (pad items n)[j]? =
      if j < items.length then items[j]? else if j < n then some .null else none := by
  unfold pad
  rw [List.getElem?_append, List.getElem?_replicate]
  split
  · rfl
  · rename_i hj
    by_cases hn : j < n
    · rw [if_pos hn, if_pos (by omega)]
    · rw [if_neg hn, if_neg (by omega)]

theorem length_pad (items : List Json) (n : Nat) : (pad items n).length = max items.length n := by
  unfold pad
  rw [List.length_append, List.length_replicate]
  omega

@[simp] theorem length_setItem (v : Json) (i : Nat) (items : List Json) :
    (setItem v i items).length = max items.length (i + 1) := by
  rw [setItem, List.length_set, length_pad]

@[simp] theorem getElem?_setItem_self (v : Json) (i : Nat) (items : List Json) :
    (setItem v i items)[i]? = some v := by
  rw [setItem, List.getElem?_set_self]
  rw [length_pad]
  omega

theorem getElem?_setItem_of_ne (v : Json) {i j : Nat} (h : i ≠ j) (items : List Json) :
    (setItem v i items)[j]? =
      if j < items.length then items[j]? else if j < i + 1 then some .null else none := by
  rw [setItem, List.getElem?_set_ne h, getElem?_pad]

theorem setItem_setItem (v w : Json) (i : Nat) (items : List Json) :
    setItem v i (setItem w i items) = setItem v i items := by
  apply List.ext_getElem?
  intro j
  by_cases h : i = j
  · subst h
    rw [getElem?_setItem_self, getElem?_setItem_self]
  · rw [getElem?_setItem_of_ne v h, getElem?_setItem_of_ne v h, getElem?_setItem_of_ne w h,
      length_setItem]
    grind

theorem setItem_comm (v w : Json) {i j : Nat} (h : i ≠ j) (items : List Json) :
    setItem v i (setItem w j items) = setItem w j (setItem v i items) := by
  apply List.ext_getElem?
  intro k
  by_cases hi : i = k
  · subst hi
    rw [getElem?_setItem_self, getElem?_setItem_of_ne w (Ne.symm h), getElem?_setItem_self,
      length_setItem, if_pos (by omega)]
  · by_cases hj : j = k
    · subst hj
      rw [getElem?_setItem_self, getElem?_setItem_of_ne v h, getElem?_setItem_self,
        length_setItem, if_pos (by omega)]
    · rw [getElem?_setItem_of_ne v hi, getElem?_setItem_of_ne w hj, getElem?_setItem_of_ne w hj,
        getElem?_setItem_of_ne v hi, length_setItem, length_setItem]
      grind

/-- An item that is there is written as it is. -/
theorem setItem_getElem? {v : Json} {i : Nat} {items : List Json} (h : items[i]? = some v) :
    setItem v i items = items := by
  obtain ⟨hi, hv⟩ := List.getElem?_eq_some_iff.mp h
  have hpad : pad items (i + 1) = items := by
    rw [pad, Nat.sub_eq_zero_of_le hi, List.replicate_zero, List.append_nil]
  rw [setItem, hpad, ← hv, List.set_getElem_self]

/-- The container has a place for the segment. -/
def addresses : Segment → Json → Bool
  | .key _, .obj _ => true
  | .index _, .arr _ => true
  | .index _, .obj _ => true
  | _, _ => false

/-- What stands in the place of a segment; nothing is the same as null. -/
def slot (s : Segment) (c : Json) : Json := (step? c s).getD .null

/-- The container with a value in the place of a segment, if it has one. -/
def put (v : Json) : Segment → Json → Json
  | .key k, .obj members => .obj (Fields.insert k v members)
  | .index i, .arr items => .arr (setItem v i items)
  | .index i, .obj members => .obj (Fields.insert (toString i) v members)
  | _, c => c

/-- The container that a write finds: null gives way to a new one. -/
def base (s : Segment) (doc : Json) : Json := if doc.isNull then container s else doc

/-- Why a segment is refused where it has no place. -/
def refusal : Segment → WriteError
  | .key k => .notAnObject k
  | .index i => .notAnArray i

section
variable (v w : Json) (s t : Segment) (c doc : Json) (members : List (String × Json))

@[simp] theorem step?_obj : step? (.obj members) s = Fields.get? s.name members := by
  cases s <;> rfl

@[simp] theorem put_obj : put v s (.obj members) = .obj (Fields.insert s.name v members) := by
  cases s <;> rfl

@[simp] theorem addresses_put : addresses t (put v s c) = addresses t c := by
  cases s <;> cases c <;> cases t <;> rfl

theorem put_put : put v s (put w s c) = put v s c := by
  cases c with
  | obj members => simp only [put_obj, Fields.insert_insert_self]
  | arr items =>
    cases s with
    | key k => rfl
    | index i => exact congrArg Json.arr (setItem_setItem v w i items)
  | _ => cases s <;> rfl

variable {s t}

theorem put_comm (h : s.Apart t) : put v s (put w t c) = put w t (put v s c) := by
  cases c with
  | obj members => simp only [put_obj, Fields.insert_comm h.name_ne]
  | arr items =>
    cases s with
    | key k => cases t <;> rfl
    | index i =>
      cases t with
      | key l => rfl
      | index j =>
        exact congrArg Json.arr (setItem_comm v w h.index_ne items)
  | _ => cases s <;> cases t <;> rfl

variable {c}

theorem slot_of_step? (h : step? c s = some v) : slot s c = v := by
  rw [slot, h, Option.getD_some]

/-- A place that is there holds what is put into it. -/
theorem step?_put_self (h : addresses s c = true) : step? (put v s c) s = some v := by
  cases c with
  | obj members => simp
  | arr items =>
    cases s with
    | key k => cases h
    | index i => exact getElem?_setItem_self v i items
  | _ => cases s <;> cases h

@[simp] theorem slot_put_self (h : addresses s c = true) : slot s (put v s c) = v := by
  exact slot_of_step? v (step?_put_self v h)

/-- What another place holds, it still holds. -/
theorem step?_put_of_apart (h : s.Apart t) (ht : step? c t = some w) :
    step? (put v s c) t = some w := by
  cases c with
  | obj members =>
    rw [step?_obj] at ht
    rw [put_obj, step?_obj, Fields.get?_insert_of_ne h.symm.name_ne, ht]
  | arr items =>
    cases s with
    | key k => exact ht
    | index i =>
      cases t with
      | key l => exact ht
      | index j =>
        have hitem : items[j]? = some w := ht
        have hj : j < items.length := (List.getElem?_eq_some_iff.mp hitem).1
        show (setItem v i items)[j]? = some w
        rw [getElem?_setItem_of_ne v h.index_ne, if_pos hj, hitem]
  | _ => cases t <;> cases ht

/-- Other places do not change, save that new items are null. -/
theorem slot_put_of_apart (h : s.Apart t) : slot t (put v s c) = slot t c := by
  cases c with
  | obj members =>
    unfold slot
    rw [put_obj, step?_obj, step?_obj, Fields.get?_insert_of_ne h.symm.name_ne]
  | arr items =>
    cases s with
    | key k => rfl
    | index i =>
      cases t with
      | key l => rfl
      | index j =>
        show (setItem v i items)[j]?.getD .null = items[j]?.getD .null
        rw [getElem?_setItem_of_ne v h.index_ne]
        by_cases hj : j < items.length
        · rw [if_pos hj]
        · rw [if_neg hj, List.getElem?_eq_none (Nat.not_lt.mp hj)]
          split <;> rfl
  | _ => cases s <;> rfl

/-- A container is left as it is by what it holds. -/
theorem put_of_step? (hc : ∀ members, c = .obj members → Fields.Sorted members)
    (h : step? c s = some v) : put v s c = c := by
  cases c with
  | obj members =>
    rw [step?_obj] at h
    rw [put_obj, (hc members rfl).insert_of_get? h]
  | arr items =>
    cases s with
    | key k => rfl
    | index i => exact congrArg Json.arr (setItem_getElem? h)
  | _ => cases s <;> rfl

theorem not_isNull_of_addresses (h : addresses s c = true) : c.isNull = false := by
  cases c with
  | null => cases s <;> cases h
  | _ => rfl

theorem base_of_addresses (h : addresses s c = true) : base t c = c := by
  rw [base, not_isNull_of_addresses h]
  rfl

variable {doc}

theorem addresses_of_step? {x : Json} (h : step? doc s = some x) : addresses s doc = true := by
  cases doc with
  | obj members => cases s <;> rfl
  | arr items =>
    cases s with
    | key k => cases h
    | index i => rfl
  | _ => cases s <;> cases h

theorem base_of_step? {x : Json} (h : step? doc s = some x) : base t doc = doc :=
  base_of_addresses (addresses_of_step? h)

/-- Segments of one kind make the same container. -/
theorem base_eq_of_isKey (h : s.isKey = t.isKey) : base s doc = base t doc := by
  have hcontainer : container s = container t := by
    cases s with
    | key k =>
      cases t with
      | key l => rfl
      | index j => cases h
    | index i =>
      cases t with
      | key l => cases h
      | index j => rfl
  rw [base, base, hcontainer]

end

@[simp] theorem addresses_base_null (s : Segment) : addresses s (base s .null) = true := by
  cases s <;> rfl

@[simp] theorem slot_base_null (s : Segment) : slot s (base s .null) = .null := by
  cases s <;> rfl

/-- Where nothing is read, a write finds null. -/
theorem slot_base_of_step?_eq_none {s : Segment} {doc : Json} (h : step? doc s = none) :
    slot s (base s doc) = .null := by
  unfold base
  split
  · cases s <;> rfl
  · rw [slot, h, Option.getD_none]

/-- A write goes on in the place of the first segment, or ends where there is none. -/
theorem set_cons (new : Json) (s : Segment) (p : Path) (doc : Json) :
    set new (s :: p) doc =
      if addresses s (base s doc) then
        (put (set new p (slot s (base s doc))).1 s (base s doc),
          (set new p (slot s (base s doc))).2)
      else (doc, some (refusal s)) := by
  have hitem : ∀ (items : List Json) (i : Nat),
      (pad items (i + 1))[i]?.getD .null = items[i]?.getD .null := by
    intro items i
    rw [getElem?_pad]
    split
    · rfl
    · rename_i hi
      rw [if_pos (Nat.lt_succ_self i), List.getElem?_eq_none (Nat.not_lt.mp hi)]
      rfl
  cases doc with
  | null =>
    cases s with
    | key k => rfl
    | index i =>
      simp only [set, Json.isNull, base, container, hitem]
      rfl
  | arr items =>
    cases s with
    | key k => rfl
    | index i =>
      simp only [set, Json.isNull, base, hitem]
      rfl
  | _ => cases s <;> rfl

end Path
end Switchboard
