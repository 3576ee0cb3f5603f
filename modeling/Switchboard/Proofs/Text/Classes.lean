import Switchboard.Text.Class

/-! Which classes of characters have none in common. -/
namespace Switchboard.Text

/-- No range of one list meets a range of the other. -/
def Apart (rs ss : List (Nat × Nat)) : Prop := ∀ r ∈ rs, ∀ s ∈ ss, r.2 < s.1 ∨ s.2 < r.1

instance (rs ss : List (Nat × Nat)) : Decidable (Apart rs ss) :=
  inferInstanceAs (Decidable (∀ r ∈ rs, ∀ s ∈ ss, r.2 < s.1 ∨ s.2 < r.1))

theorem Apart.inRanges_eq_false {rs ss : List (Nat × Nat)} (h : Apart rs ss) {n : Nat}
    (hn : inRanges rs n = true) : inRanges ss n = false := by
  obtain ⟨r, hr, hrn⟩ := inRanges_iff.mp hn
  refine Bool.eq_false_iff.mpr fun hs => ?_
  obtain ⟨s, hs, hsn⟩ := inRanges_iff.mp hs
  have := h r hr s hs
  omega

/-- The digits of ASCII. -/
def digitRange : List (Nat × Nat) := [(0x30, 0x39)]

/-- The visible characters of ASCII that are no letters, digits or underscores. -/
def markRanges : List (Nat × Nat) :=
  [(0x21, 0x2F), (0x3A, 0x40), (0x5B, 0x5E), (0x60, 0x60), (0x7B, 0x7E)]

def isMark (c : Char) : Bool := inRanges markRanges c.toNat

theorem isDigit_eq (c : Char) : c.isDigit = inRanges digitRange c.toNat := by
  rw [Bool.eq_iff_iff, Char.isDigit_iff_toNat, inRanges_iff]
  simp [digitRange]

theorem letters_apart_white : Apart letterRanges whiteRanges := by decide +kernel
theorem letters_apart_digits : Apart letterRanges digitRange := by decide +kernel
theorem letters_apart_marks : Apart letterRanges markRanges := by decide +kernel
theorem numerals_apart_white : Apart numeralRanges whiteRanges := by decide +kernel
theorem numerals_apart_marks : Apart numeralRanges markRanges := by decide +kernel
theorem digits_apart_white : Apart digitRange whiteRanges := by decide
theorem digits_apart_marks : Apart digitRange markRanges := by decide
theorem marks_apart_white : Apart markRanges whiteRanges := by decide

theorem isWhite_of_isDigit {c : Char} (h : c.isDigit = true) : isWhite c = false :=
  digits_apart_white.inRanges_eq_false (isDigit_eq c ▸ h)

theorem isMark_of_isDigit {c : Char} (h : c.isDigit = true) : isMark c = false :=
  digits_apart_marks.inRanges_eq_false (isDigit_eq c ▸ h)

theorem isWhite_of_isMark {c : Char} (h : isMark c = true) : isWhite c = false :=
  marks_apart_white.inRanges_eq_false h

theorem ne_of_isMark {c d : Char} (hc : isMark c = false) (hd : isMark d = true) : c ≠ d := by
  rintro rfl
  rw [hd] at hc
  cases hc

theorem isAnyDigit_of_isDigit {c : Char} (h : c.isDigit = true) : isAnyDigit c = true := by
  rw [isDigit_eq] at h
  obtain ⟨r, hr, hc⟩ := inRanges_iff.mp h
  obtain rfl := List.mem_singleton.mp hr
  exact inRanges_iff.mpr ⟨_, List.mem_cons_self, hc⟩

end Switchboard.Text
