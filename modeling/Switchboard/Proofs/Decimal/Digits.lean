import Mathlib.Algebra.Group.Nat.Defs
import Switchboard.Decimal.Numeral
import Switchboard.Json.Text

/-! Digits and the numbers that they write: the decimal digits of an integer are read as that
integer. -/
namespace Switchboard.Decimal

theorem all_isDigit_digitsOf (n : Nat) : (digitsOf n).all Char.isDigit = true :=
  List.all_eq_true.mpr fun _ hc => Nat.isDigit_of_mem_toDigits (by decide) (by decide) hc

theorem digitsOf_ne_nil (n : Nat) : digitsOf n ≠ [] := Nat.toDigits_ne_nil

theorem all_isDigit_zeros (k : Nat) : (List.replicate k '0').all Char.isDigit = true := by
  simp

/-- The first of nonempty digits. -/
theorem exists_digit_cons {s : List Char} (hne : s ≠ []) (h : s.all Char.isDigit = true) :
    ∃ c t, s = c :: t ∧ c.isDigit = true := by
  cases s with
  | nil => exact absurd rfl hne
  | cons c t => exact ⟨c, t, rfl, (Bool.and_eq_true_iff.mp h).1⟩

theorem readDigits_eq_ofDigitChars (n : Nat) (s : List Char) :
    readDigits n s = Nat.ofDigitChars 10 s n := by
  induction s generalizing n with
  | nil => rfl
  | cons c s ih => exact ih _

theorem readDigits_append (n : Nat) (s t : List Char) :
    readDigits n (s ++ t) = readDigits (readDigits n s) t := by
  simp only [readDigits_eq_ofDigitChars, Nat.ofDigitChars_append]

theorem readDigits_zeros (n k : Nat) : readDigits n (List.replicate k '0') = n * 10 ^ k := by
  rw [readDigits_eq_ofDigitChars, Nat.ofDigitChars_replicate_zero, Nat.mul_comm]

/-- Digits write a number below the power of ten of their count. -/
theorem readDigits_lt {s : List Char} (h : s.all Char.isDigit = true) (n : Nat) :
    readDigits n s < (n + 1) * 10 ^ s.length := by
  induction s generalizing n with
  | nil =>
    rw [List.length_nil, Nat.pow_zero, Nat.mul_one]
    exact Nat.lt_succ_self n
  | cons c s ih =>
    obtain ⟨hc, hs⟩ := Bool.and_eq_true_iff.mp h
    have hdigit : digitValue c ≤ 9 := by
      obtain ⟨hzero, hnine⟩ := Char.isDigit_iff_toNat.mp hc
      have : c.toNat ≤ 57 := hnine
      unfold digitValue
      omega
    have hstep := ih hs (10 * n + digitValue c)
    have hmul : (10 * n + digitValue c + 1) * 10 ^ s.length ≤ 10 * (n + 1) * 10 ^ s.length :=
      Nat.mul_le_mul_right _ (by omega)
    have hpow : (n + 1) * 10 ^ (c :: s).length = 10 * (n + 1) * 10 ^ s.length := by
      rw [List.length_cons, Nat.pow_succ, Nat.mul_comm _ 10, ← Nat.mul_assoc, Nat.mul_comm _ 10]
    rw [hpow]
    exact Nat.lt_of_lt_of_le hstep hmul

theorem readDigits_digitsOf (n : Nat) : readDigits 0 (digitsOf n) = n :=
  (readDigits_eq_ofDigitChars 0 _).trans Nat.ofDigitChars_ten_toDigits

theorem natural?_digitsOf (n : Nat) : natural? (digitsOf n) = some n := by
  rw [natural?, if_pos ⟨digitsOf_ne_nil n, all_isDigit_digitsOf n⟩, readDigits_digitsOf]

/-- Digits have no case. -/
theorem toLower_of_isDigit {c : Char} (h : c.isDigit = true) : c.toLower = c := by
  have hc : ¬ (c.val ≥ 'A'.val ∧ c.val ≤ 'Z'.val) := by
    intro hA
    have h9 : c.val ≤ '9'.val := of_decide_eq_true (Bool.and_eq_true_iff.mp h).2
    exact absurd (UInt32.le_trans hA.1 h9) (by decide)
  exact dif_neg hc

theorem takeWhile_isDigit {s : List Char} (h : s.all Char.isDigit = true) :
    s.takeWhile Char.isDigit = s := by
  have hnil : (s ++ []).takeWhile Char.isDigit = s ++ [] :=
    List.takeWhile_append_of_pos (List.all_eq_true.mp h)
  rwa [List.append_nil] at hnil

theorem dropWhile_isDigit {s : List Char} (h : s.all Char.isDigit = true) :
    s.dropWhile Char.isDigit = [] := by
  have hnil : (s ++ []).dropWhile Char.isDigit = [] :=
    List.dropWhile_append_of_pos (List.all_eq_true.mp h)
  rwa [List.append_nil] at hnil

/-- A numeral of digits alone is no word. -/
theorem unsigned?_digits {s : List Char} (hne : s ≠ []) (h : s.all Char.isDigit = true) :
    unsigned? s = some (nearest (readDigits 0 s) 0) := by
  have hlower : s.map Char.toLower = s :=
    (List.map_congr_left fun c hc => toLower_of_isDigit (List.all_eq_true.mp h c hc)).trans
      s.map_id'
  have hword : ∀ c t, c.isDigit = false → s ≠ c :: t := by
    rintro c t hc rfl
    rw [List.all_cons, hc] at h
    cases h
  unfold unsigned?
  simp only [hlower, takeWhile_isDigit h, dropWhile_isDigit h]
  have hinf : s ≠ "inf".toList := hword 'i' ['n', 'f'] rfl
  have hinfinity : s ≠ "infinity".toList := hword 'i' ['n', 'f', 'i', 'n', 'i', 't', 'y'] rfl
  have hnan : s ≠ "nan".toList := hword 'n' ['a', 'n'] rfl
  rw [if_neg (not_or.mpr ⟨hinf, hinfinity⟩), if_neg hnan, if_neg (fun hs => hne hs.1),
    List.append_nil]
  rfl

theorem nearest_zero_exp {n : Nat} (h : n < 0x10000000000000000) : nearest n 0 = .ofInt n := by
  by_cases hn : n = 0
  · subst hn
    rfl
  · have hlog : n.log2 < 64 := (Nat.log2_lt hn).mpr h
    unfold nearest
    rw [if_neg hn]
    simp only
    rw [if_neg (by omega), if_neg (by omega)]
    rfl

theorem unsigned?_digitsOf {n : Nat} (h : n < 0x10000000000000000) :
    unsigned? (digitsOf n) = some (.ofInt n) := by
  rw [unsigned?_digits (digitsOf_ne_nil n) (all_isDigit_digitsOf n), readDigits_digitsOf,
    nearest_zero_exp h]

/-- A sign is no digit. -/
theorem float?_digits {s : List Char} (h : s.all Char.isDigit = true) : float? s = unsigned? s := by
  unfold float?
  split
  · cases h
  · cases h
  · rfl

theorem float?_chars {n : Int} (h : n.natAbs < 0x10000000000000000) :
    float? (Number.chars (.int n)) = some (.ofInt n) := by
  rw [Number.chars]
  cases n with
  | ofNat n =>
    rw [if_neg (by simp), List.nil_append]
    exact (float?_digits (all_isDigit_digitsOf n)).trans (unsigned?_digitsOf h)
  | negSucc n =>
    have hn : unsigned? (digitsOf (n + 1)) = some (.ofInt (n + 1 : Nat)) := unsigned?_digitsOf h
    rw [if_pos (Int.negSucc_lt_zero n), List.singleton_append, Int.natAbs_negSucc, float?, hn]
    rfl

end Switchboard.Decimal
