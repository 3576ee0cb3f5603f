import Mathlib.Tactic.SplitIfs
import Switchboard.Text.Case
import Switchboard.Text.Percent

/-! The bytes of a text: they tell one text from another, and the byte zero stands for the character
zero alone. -/
namespace Switchboard.Text

theorem bytes_injective : Function.Injective bytes := fun _ _ h =>
  String.ofList_injective (String.toByteArray_inj.mp (congrArg List.toByteArray h))

theorem eq_of_zero_mem_utf8EncodeChar {c : Char} (h : 0 ∈ String.utf8EncodeChar c) :
    c = '\x00' := by
  have hzero {n : Nat} (h : (0 : UInt8) = UInt8.ofNat n) : n % 256 = 0 := by
    simpa using (congrArg UInt8.toNat h).symm
  unfold String.utf8EncodeChar at h
  dsimp only at h
  split_ifs at h
  · have hc := hzero (List.mem_singleton.mp h)
    exact Char.toNat_inj.mp (show c.val.toNat = 0 by omega)
  all_goals
    -- every byte of a longer code is at least 128
    simp only [List.mem_cons, List.not_mem_nil, or_false] at h
  · rcases h with h | h <;> have hbyte := hzero h <;> omega
  · rcases h with h | h | h <;> have hbyte := hzero h <;> omega
  · rcases h with h | h | h | h <;> have hbyte := hzero h <;> omega

theorem zero_mem_bytes {s : List Char} (h : 0 ∈ bytes s) : '\x00' ∈ s := by
  obtain ⟨c, hc, hzero⟩ := List.mem_flatMap.mp h
  exact eq_of_zero_mem_utf8EncodeChar hzero ▸ hc

/-- A run moves its letters to characters other than zero. -/
def CaseRun.Sound : CaseRun → Prop
  | (lo, hi, _, shift) => 0 < lo + shift ∧
      (hi + shift < 0xD800 ∨ 0xDFFF < lo + shift ∧ hi + shift < 0x110000)

instance : DecidablePred CaseRun.Sound := fun (_, _, _, _) =>
  inferInstanceAs (Decidable (_ ∧ (_ ∨ _ ∧ _)))

theorem sound_upperRuns : ∀ r ∈ upperRuns, r.Sound := by decide +kernel

theorem upperSequences_ne_zero :
    (upperSequences.all fun e => e.2.all fun n => Char.ofNat n != '\x00') = true := by
  decide +kernel

theorem CaseRun.Sound.ofNat_ne {lo hi step n : Nat} {shift : Int}
    (hr : CaseRun.Sound (lo, hi, step, shift))
    (hn : CaseRun.covers (lo, hi, step, shift) n = true) :
    Char.ofNat (n + shift).toNat ≠ '\x00' := by
  obtain ⟨hpos, hvalid⟩ := hr
  obtain ⟨hlo, hhi⟩ : lo ≤ n ∧ n ≤ hi := by
    simpa using (Bool.and_eq_true_iff.mp hn).1
  intro h
  have hcode : (Char.ofNat (n + shift).toNat).toNat = (n + shift).toNat := by
    rw [Char.ofNat, dif_pos (show Nat.isValidChar _ by unfold Nat.isValidChar; omega)]
    rfl
  have hzero : '\x00'.toNat = 0 := rfl
  rw [h, hzero] at hcode
  omega

theorem zero_not_mem_upperChar {c : Char} (hc : c ≠ '\x00') : '\x00' ∉ upperChar c := by
  unfold upperChar mapCase
  dsimp only
  split
  · next lo hi step shift hfind =>
    have hsound := sound_upperRuns _ (List.mem_of_find?_eq_some hfind)
    have hcovers := List.find?_some hfind
    rw [List.mem_singleton]
    exact (hsound.ofNat_ne hcovers).symm
  · split
    · next letters hlookup =>
      obtain ⟨before, after, hentries, -⟩ := List.lookup_eq_some_iff.mp hlookup
      have hletters := List.all_eq_true.mp upperSequences_ne_zero (c.toNat, letters)
        (hentries ▸ List.mem_append_right _ List.mem_cons_self)
      intro hmem
      obtain ⟨n, hn, hzero⟩ := List.mem_map.mp hmem
      exact bne_iff_ne.mp (List.all_eq_true.mp hletters n hn) hzero
    · exact fun hmem => hc (List.mem_singleton.mp hmem).symm

/-- Upper case brings no character zero in. -/
theorem zero_not_mem_upper {s : List Char} (h : '\x00' ∉ s) : '\x00' ∉ upper s := by
  intro hmem
  obtain ⟨c, hc, hzero⟩ := List.mem_flatMap.mp hmem
  exact zero_not_mem_upperChar (fun hcz => h (hcz ▸ hc)) hzero

end Switchboard.Text
