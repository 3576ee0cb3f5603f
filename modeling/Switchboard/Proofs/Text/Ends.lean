import Mathlib.Data.List.Basic
import Switchboard.Proofs.Text.Classes

/-! What a text begins and ends with, and what comes off its ends. -/
namespace Switchboard.Text

/-- A text that neither begins nor ends with a character of a class. -/
structure Bounded (p : Char → Bool) (s : List Char) : Prop where
  ne_nil : s ≠ []
  first : s.head?.any p = false
  last : s.getLast?.any p = false

instance (p : Char → Bool) (s : List Char) : Decidable (Bounded p s) :=
  decidable_of_iff (s ≠ [] ∧ s.head?.any p = false ∧ s.getLast?.any p = false)
    ⟨fun h => ⟨h.1, h.2.1, h.2.2⟩, fun h => ⟨h.ne_nil, h.first, h.last⟩⟩

namespace Bounded
variable {p : Char → Bool} {s t : List Char}

theorem of_forall (hne : s ≠ []) (h : ∀ c ∈ s, p c = false) : Bounded p s where
  ne_nil := hne
  first := by
    rw [List.head?_eq_some_head hne]
    exact h _ (List.head_mem hne)
  last := by
    rw [List.getLast?_eq_some_getLast hne]
    exact h _ (List.getLast_mem hne)

/-- Only the ends count. -/
theorem around (hs : Bounded p s) (ht : Bounded p t) (middle : List Char) :
    Bounded p (s ++ (middle ++ t)) where
  ne_nil := List.append_ne_nil_of_left_ne_nil hs.ne_nil _
  first := by
    obtain ⟨c, u, rfl⟩ := List.exists_cons_of_ne_nil hs.ne_nil
    exact hs.first
  last := by
    rw [← List.append_assoc, List.getLast?_append_of_ne_nil _ ht.ne_nil]
    exact ht.last

theorem append (hs : Bounded p s) (ht : Bounded p t) : Bounded p (s ++ t) := hs.around ht []

/-- What belongs to the class is dropped up to the first character that does not. -/
theorem dropWhile_append {front : List Char} (hfront : ∀ c ∈ front, p c = true)
    (hs : s.head?.any p = false) : (front ++ s).dropWhile p = s := by
  rw [List.dropWhile_append_of_pos hfront]
  cases s with
  | nil => rfl
  | cons c s => exact List.dropWhile_cons_of_neg (Bool.eq_false_iff.mp hs)

/-- What is around such a text and belongs to the class comes off both ends. -/
theorem strip (hs : Bounded p s) {front back : List Char} (hfront : ∀ c ∈ front, p c = true)
    (hback : ∀ c ∈ back, p c = true) :
    (((front ++ s ++ back).dropWhile p).reverse.dropWhile p).reverse = s := by
  have hleft : (front ++ s ++ back).dropWhile p = s ++ back := by
    obtain ⟨c, t, rfl⟩ := List.exists_cons_of_ne_nil hs.ne_nil
    rw [List.append_assoc]
    exact dropWhile_append hfront hs.first
  have hright : (s ++ back).reverse.dropWhile p = s.reverse := by
    rw [List.reverse_append]
    exact dropWhile_append (fun c hc => hback c (List.mem_reverse.mp hc))
      (by rw [List.head?_reverse]; exact hs.last)
  rw [hleft, hright, List.reverse_reverse]

end Bounded

theorem bounded_of_isMark {s : List Char} (hne : s ≠ []) (h : s.all isMark = true) :
    Bounded isWhite s :=
  .of_forall hne fun c hc => isWhite_of_isMark (List.all_eq_true.mp h c hc)

/-- White space around a text that has none at its ends. -/
theorem trim_padded {front s back : List Char} (hs : Bounded isWhite s)
    (hfront : ∀ c ∈ front, isWhite c = true) (hback : ∀ c ∈ back, isWhite c = true) :
    trim (front ++ s ++ back) = s := hs.strip hfront hback

theorem trim_eq_self {s : List Char} (hs : Bounded isWhite s) : trim s = s := by
  have h : trim ([] ++ s ++ []) = s := trim_padded hs nofun nofun
  rwa [List.nil_append, List.append_nil] at h

end Switchboard.Text
