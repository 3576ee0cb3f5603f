import Switchboard.Decimal.Numeral
import Switchboard.Proofs.Decimal.Storage

/-! A decimal is read as the stored number nearest to it. -/
namespace Switchboard.Decimal
open Float.Model Float.Model.UnpackedFloat

namespace Binary
variable {x : Binary} {v : ℚ}

/-- What is nearest to a stored magnitude is far from zero … -/
theorem Attracts.lower_bound (hv : x.Attracts v) (hx : x.Canonical) : 10 ^ (-324 : Int) ≤ v := by
  have hpow : (2 : ℚ) ^ 1075 ≤ 10 ^ 324 := by
    exact_mod_cast (by decide +kernel : 2 ^ 1075 ≤ 10 ^ 324)
  have hpos : (1 : ℚ) ≤ x.m := by exact_mod_cast hx.pos
  have hhalf : 2 ^ (-1 : Int) ≤ v / 2 ^ x.q := by
    have := hv.isNearest.lower
    norm_num
    linarith
  rw [le_div_iff₀ (by positivity), ← zpow_add₀ (by norm_num)] at hhalf
  calc (10 : ℚ) ^ (-324 : Int) ≤ 2 ^ (-1075 : Int) := by
        rw [zpow_neg, zpow_neg]
        exact inv_anti₀ (by positivity) hpow
    _ ≤ 2 ^ (-1 + x.q) := zpow_le_zpow_right₀ (by norm_num) (by linarith [hx.low])
    _ ≤ v := hhalf

/-- … and from infinity. -/
theorem Attracts.upper_bound (hv : x.Attracts v) (hx : x.Canonical) : v < 10 ^ (309 : Int) := by
  have hpow : (2 : ℚ) ^ 1024 ≤ 10 ^ 309 := by
    exact_mod_cast (by decide +kernel : 2 ^ 1024 ≤ 10 ^ 309)
  have hm : (x.m : ℚ) + 1 ≤ 2 ^ 53 := by exact_mod_cast hx.lt
  have hless : v / 2 ^ x.q < 2 ^ (53 : Int) := by
    have := hv.isNearest.upper
    norm_num at hm ⊢
    linarith
  rw [div_lt_iff₀ (by positivity), ← zpow_add₀ (by norm_num)] at hless
  calc v < 2 ^ (53 + x.q) := hless
    _ ≤ 2 ^ (1024 : Int) := zpow_le_zpow_right₀ (by norm_num) (by linarith [hx.high])
    _ ≤ 10 ^ (309 : Int) := hpow

end Binary

/-- Ten bits are a little more than three decimal digits. -/
theorem ten_pow_le_of_log2 {n : Nat} (hn : 0 < n) : 10 ^ (3 * (n.log2 / 10)) ≤ n :=
  calc 10 ^ (3 * (n.log2 / 10)) = (10 ^ 3) ^ (n.log2 / 10) := Nat.pow_mul ..
    _ ≤ (2 ^ 10) ^ (n.log2 / 10) := Nat.pow_le_pow_left (by decide) _
    _ = 2 ^ (10 * (n.log2 / 10)) := (Nat.pow_mul ..).symm
    _ ≤ 2 ^ n.log2 := Nat.pow_le_pow_right (by decide) (Nat.mul_div_le ..)
    _ ≤ n := Nat.log2_self_le hn.ne'

/-- Ninety-three bits are a little less than twenty-eight. -/
theorem lt_ten_pow_of_log2 (n : Nat) : n < 10 ^ (28 * (n.log2 / 93 + 1)) :=
  calc n < 2 ^ (n.log2 + 1) := Nat.lt_log2_self
    _ ≤ 2 ^ (93 * (n.log2 / 93 + 1)) := Nat.pow_le_pow_right (by decide) (by omega)
    _ = (2 ^ 93) ^ (n.log2 / 93 + 1) := Nat.pow_mul ..
    _ ≤ (10 ^ 28) ^ (n.log2 / 93 + 1) := Nat.pow_le_pow_left (by decide) _
    _ = 10 ^ (28 * (n.log2 / 93 + 1)) := (Nat.pow_mul ..).symm

/-- The order of a decimal is that of the number it is nearest to. -/
theorem size_bounds {x : Binary} {n : Nat} {e : Int} (hx : x.Canonical) (hn : 0 < n)
    (he : -1100 ≤ e) (hv : x.Attracts (n * 10 ^ e)) :
    -400 ≤ (n.log2 : Int) * 30103 / 100000 + e ∧ (n.log2 : Int) * 30103 / 100000 + e ≤ 400 := by
  have hpow {a b : Int} (h : (10 : ℚ) ^ a < 10 ^ b) : a < b :=
    (zpow_lt_zpow_iff_right₀ (by norm_num)).mp h
  have hlarge : ((3 * (n.log2 / 10) : Nat) : Int) + e < 309 := by
    refine hpow ?_
    rw [zpow_add₀ (by norm_num), zpow_natCast]
    refine lt_of_le_of_lt ?_ (hv.upper_bound hx)
    gcongr
    exact_mod_cast ten_pow_le_of_log2 hn
  have hsmall : -324 < ((28 * (n.log2 / 93 + 1) : Nat) : Int) + e := by
    refine hpow ?_
    rw [zpow_add₀ (by norm_num), zpow_natCast]
    refine lt_of_le_of_lt (hv.lower_bound hx) ?_
    gcongr
    exact_mod_cast lt_ten_pow_of_log2 n
  omega

/-- A positive number that is stored with no loss. -/
def IsExactly (y : Float) (v : ℚ) : Prop :=
  ∃ (m : Nat) (q : Int) (h : 0 < m),
    2 ^ 52 ≤ m ∧ y.toModel.unpack = .finite .positive m q h ∧ m * 2 ^ q = v

/-- The number itself, brought to its full length. -/
theorem full_mul_zpow {n : Nat} (hn : 0 < n) (hlt : n < 2 ^ 53) (k : Int) :
    ((n * 2 ^ (52 - n.log2) : Nat) : ℚ) * 2 ^ ((n.log2 : Int) - 52 + k) = n * 2 ^ k := by
  have hlog := log2_lt_of_lt hn hlt
  push_cast
  rw [mul_assoc, ← zpow_natCast, ← zpow_add₀ (by norm_num)]
  congr 2
  omega

theorem isExactly_stored {n : Nat} (hn : 0 < n) (hlt : n < 2 ^ 53) {k : Int} (hlow : -1022 ≤ k)
    (hhigh : k ≤ 971) :
    IsExactly (.ofModel (stored .positive (n * 2 ^ (52 - n.log2)) (n.log2 - 52 + k)
      (isFull_mul_two_pow hn hlt))) (n * 2 ^ k) := by
  have hlog := log2_lt_of_lt hn hlt
  have hfull := isFull_mul_two_pow hn hlt
  exact ⟨_, _, hfull.pos, hfull.1, unpack_stored hfull (by omega) (by omega) .positive,
    full_mul_zpow hn hlt k⟩

theorem isExactly_toUInt64 {n : Nat} (hn : 0 < n) (hlt : n < 2 ^ 53) :
    IsExactly n.toUInt64.toFloat n := by
  have hstored := isExactly_stored hn hlt (k := 0) (by decide) (by decide)
  simp only [add_zero, zpow_zero, mul_one, ← ofUInt64_eq hn hlt] at hstored
  exact hstored

theorem five_pow_lt {k : Nat} (hk : k < 23) : 5 ^ k < 2 ^ 53 :=
  (Nat.pow_le_pow_right (by decide) (Nat.le_of_lt_succ hk)).trans_lt (by decide : 5 ^ 22 < 2 ^ 53)

/-- The powers of ten that a short numeral is multiplied with or divided by are exact: what is left
of them without their factors two has at most 53 bits. -/
theorem powerOfTen_eq (k : Fin 23) : Float.exactlyRepresentablePowersOfTen[k] =
    .ofModel (stored .positive (5 ^ k.1 * 2 ^ (52 - (5 ^ k.1).log2)) ((5 ^ k.1).log2 - 52 + k)
      (isFull_mul_two_pow (Nat.pow_pos (by decide)) (five_pow_lt k.2))) := by
  revert k
  decide +kernel

theorem isExactly_powerOfTen {k : Nat} (hk : k < Float.exactlyRepresentablePowersOfTen.size) :
    IsExactly Float.exactlyRepresentablePowersOfTen[k] (10 ^ k) := by
  have hlt : k < 23 := hk
  have hten : (10 : ℚ) ^ k = (5 ^ k : Nat) * 2 ^ (k : Int) := by
    rw [zpow_natCast, Nat.cast_pow, ← mul_pow]
    norm_num
  have hstored := isExactly_stored (Nat.pow_pos (by decide)) (five_pow_lt hlt) (k := k) (by omega)
    (by omega)
  rw [← powerOfTen_eq ⟨k, hlt⟩, ← hten] at hstored
  exact hstored

section Operations
variable {x : Binary} (hx : x.Canonical) {y z : Float} {v w : ℚ}
include hx

theorem IsExactly.mul (hy : IsExactly y v) (hz : IsExactly z w) (hv : x.Attracts (v * w)) :
    y * z = x.toFloat hx .positive := by
  obtain ⟨m, q, h, hm, hy, rfl⟩ := hy
  obtain ⟨n, p, g, hn, hz, rfl⟩ := hz
  have hlong : 2 ^ 52 ≤ m * n := hm.trans (Nat.le_mul_of_pos_right m g)
  show Float.ofModel (.pack (UnpackedFloat.mul .binary64 y.toModel.unpack z.toModel.unpack)) = _
  rw [hy, hz, hv.mul_eq h g hx hlong]
  rfl

theorem IsExactly.div (hy : IsExactly y v) (hz : IsExactly z w) (hv : x.Attracts (v / w)) :
    y / z = x.toFloat hx .positive := by
  obtain ⟨m, q, h, hm, hy, rfl⟩ := hy
  obtain ⟨n, p, g, hn, hz, rfl⟩ := hz
  show Float.ofModel (.pack (UnpackedFloat.div .binary64 y.toModel.unpack z.toModel.unpack)) = _
  rw [hy, hz, hv.div_eq h g hx]
  rfl

end Operations

theorem mul_zpow_neg (n : Nat) (e : Int) (he : e < 0) :
    (n : ℚ) * 10 ^ e = n / 10 ^ e.natAbs := by
  have hexp : e = -(e.natAbs : Int) := by omega
  conv_lhs => rw [hexp, zpow_neg, zpow_natCast]
  rfl

section Scientific
variable {x : Binary} (hx : x.Canonical) {n : Nat} (hn : 0 < n) {e : Int}
variable (hv : x.Attracts (n * 10 ^ e))
include hn hv

/-- A numeral of few digits and a small exponent. -/
theorem ofScientific_short (he : e.natAbs < 23) (hlt : n < 2 ^ 53) :
    Float.ofScientific n (e < 0) e.natAbs = x.toFloat hx .positive := by
  rw [Float.ofScientific, dif_pos ⟨hlt, Nat.le_of_lt_succ he⟩]
  have hnum := isExactly_toUInt64 hn hlt
  have hpow := isExactly_powerOfTen he
  by_cases hneg : e < 0
  · rw [mul_zpow_neg n e hneg] at hv
    rw [if_pos (decide_eq_true hneg)]
    exact hnum.div hx hpow hv
  · have hexp : e = (e.natAbs : Int) := by omega
    rw [hexp, zpow_natCast] at hv
    rw [if_neg (by simpa using hneg)]
    exact hnum.mul hx hpow hv

/-- Any other numeral of a moderate exponent. -/
theorem ofScientific_long (hlow : -2048 ≤ e) (hhigh : e ≤ 2048) :
    UnpackedFloat.ofScientific .binary64 n e = .finite .positive x.m x.q hx.pos := by
  have hbits : ¬ e > 2 ^ Format.binary64.exponentBits := by
    show ¬ e > 2048
    omega
  have hsize : ¬ e < -(2 ^ Format.binary64.exponentBits + (n.log2 : Int)) := by
    show ¬ e < -(2048 + (n.log2 : Int))
    omega
  rw [UnpackedFloat.ofScientific, dif_neg hn.ne', if_neg hbits, if_neg hsize]
  by_cases hneg : 0 ≤ e
  · rw [if_pos hneg]
    refine Binary.Attracts.mul_eq _ _ ?_ hx ?_
    · have hexp : e = (e.toNat : Int) := by omega
      have hvalue : ((n <<< Format.binary64.mantissaBits : Nat) : ℚ) *
          2 ^ (-(Format.binary64.mantissaBits : Int)) * ((10 ^ e.toNat : Nat) * 2 ^ (0 : Int)) =
          n * 10 ^ e := by
        conv_rhs => rw [hexp]
        rw [Nat.shiftLeft_eq, zpow_neg, zpow_natCast, zpow_natCast, zpow_zero]
        push_cast
        field_simp
      rwa [hvalue]
    · have hpow : 0 < 10 ^ e.toNat := Nat.pow_pos (by decide)
      rw [Nat.shiftLeft_eq]
      calc 2 ^ 52 ≤ n * 2 ^ 53 := by omega
        _ ≤ n * 2 ^ 53 * 10 ^ e.toNat := Nat.le_mul_of_pos_right _ hpow
  · rw [if_neg hneg]
    refine Binary.Attracts.div_eq _ _ ?_ hx
    rw [mul_zpow_neg n e (by omega)] at hv
    have hexp : (-e).toNat = e.natAbs := by omega
    rw [hexp]
    push_cast
    simpa using hv

end Scientific

theorem exponent_le {x : Binary} {n : Nat} {e : Int} (hx : x.Canonical) (hn : 0 < n)
    (hv : x.Attracts (n * 10 ^ e)) : e < 309 := by
  have hone : (1 : ℚ) ≤ n := by exact_mod_cast hn
  refine (zpow_lt_zpow_iff_right₀ (by norm_num : (1 : ℚ) < 10)).mp ?_
  exact (le_mul_of_one_le_left (by positivity) hone).trans_lt (hv.upper_bound hx)

theorem nearest_eq {x : Binary} {n : Nat} {e : Int} (hx : x.Canonical) (hn : 0 < n)
    (he : -1100 ≤ e) (hv : x.Attracts (n * 10 ^ e)) : nearest n e = x.toFloat hx .positive := by
  have hpow := exponent_le hx hn hv
  obtain ⟨hlow, hhigh⟩ := size_bounds hx hn he hv
  unfold nearest
  rw [if_neg hn.ne']
  simp only
  rw [if_neg (by omega), if_neg (by omega)]
  by_cases hshort : n < 2 ^ 53 ∧ e.natAbs ≤ 22
  · exact ofScientific_short hx hn hv (by omega) hshort.1
  · have hexp : (if decide (e < 0) = true then Int.negOfNat e.natAbs else .ofNat e.natAbs) = e := by
      cases e with
      | ofNat e => rfl
      | negSucc e => exact if_pos (decide_eq_true (Int.negSucc_lt_zero e))
    have hlong := ofScientific_long hx hn hv (by omega) (by omega)
    rw [Float.ofScientific, dif_neg hshort]
    simp only [hexp]
    rw [Float.Model.ofScientific, hlong]
    rfl

end Switchboard.Decimal
