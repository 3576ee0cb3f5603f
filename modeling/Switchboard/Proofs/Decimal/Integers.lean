import Mathlib
import Switchboard.Json.Basic

/-! Integers below 2^53 are binary64 numbers. Rounding leaves a mantissa of exactly 53 bits alone,
so that an integer keeps its value on the way to a float and back. -/
namespace Switchboard.Decimal
open Float.Model Float.Model.UnpackedFloat

/-- A mantissa of exactly 53 bits. -/
def IsFull (m : Nat) : Prop := 2 ^ 52 ≤ m ∧ m < 2 ^ 53

theorem IsFull.pos {m : Nat} (h : IsFull m) : 0 < m := Nat.lt_of_lt_of_le (by decide) h.1

theorem IsFull.log2_eq {m : Nat} (h : IsFull m) : m.log2 = 52 :=
  (Nat.log2_eq_iff (Nat.ne_of_gt h.pos)).mpr h

theorem IsFull.log2_mul_two_pow {m : Nat} (h : IsFull m) (j : Nat) :
    (m * 2 ^ j).log2 = 52 + j := by
  have hpos : 0 < m * 2 ^ j := Nat.mul_pos h.pos (Nat.two_pow_pos j)
  have hsum : 52 + j + 1 = 53 + j := by omega
  refine (Nat.log2_eq_iff (Nat.ne_of_gt hpos)).mpr ⟨?_, ?_⟩
  · rw [Nat.pow_add]
    exact Nat.mul_le_mul_right _ h.1
  · rw [hsum, Nat.pow_add]
    exact Nat.mul_lt_mul_of_pos_right h.2 (Nat.two_pow_pos j)

theorem log2_lt_of_lt {n : Nat} (hn : 0 < n) (hlt : n < 2 ^ 53) : n.log2 < 53 :=
  (Nat.log2_lt (Nat.ne_of_gt hn)).mpr hlt

/-- The mantissa of a number below 2^53, brought to its full length. -/
theorem isFull_mul_two_pow {n : Nat} (hn : 0 < n) (hlt : n < 2 ^ 53) :
    IsFull (n * 2 ^ (52 - n.log2)) := by
  have hne : n ≠ 0 := Nat.ne_of_gt hn
  have hlog := log2_lt_of_lt hn hlt
  have hpow : 2 ^ n.log2 * 2 ^ (52 - n.log2) = 2 ^ 52 := by
    rw [← Nat.pow_add]
    congr 1
    omega
  have hdouble : 2 ^ (n.log2 + 1) * 2 ^ (52 - n.log2) = 2 ^ 53 := by
    have hnext : 2 ^ 52 * 2 = 2 ^ 53 := by decide
    rw [Nat.pow_succ, Nat.mul_right_comm, hpow, hnext]
  refine ⟨?_, ?_⟩
  · rw [← hpow]
    exact Nat.mul_le_mul_right _ (Nat.log2_self_le hne)
  · rw [← hdouble]
    exact Nat.mul_lt_mul_of_pos_right Nat.lt_log2_self (Nat.two_pow_pos _)

/-- Shifting out zeros loses nothing. -/
theorem shiftRight_exact (m j : Nat) :
    (⟨m * 2 ^ j, false, false⟩ : ExtendedMantissa) >>> j = ⟨m, false, false⟩ := by
  show j.repeat ExtendedMantissa.shiftRightOne ⟨m * 2 ^ j, false, false⟩ = _
  induction j generalizing m with
  | zero => simp [Nat.repeat]
  | succ j ih =>
    have hdouble : m * 2 ^ (j + 1) = m * 2 * 2 ^ j := by rw [Nat.pow_succ', Nat.mul_assoc]
    rw [Nat.repeat, hdouble, ih (m * 2)]
    simp [ExtendedMantissa.shiftRightOne]

theorem shiftToTargetExponent_exact {m : Nat} (hm : IsFull m) {j : Nat} {e : Int}
    (he : -1074 ≤ e + j) :
    shiftToTargetExponent .binary64 (m * 2 ^ j) e .exact = (⟨m, false, false⟩, e + j) := by
  have htarget : Format.binary64.targetExponent (totalExponent (m * 2 ^ j) e) = e + j := by
    simp only [Format.targetExponent, totalExponent, hm.log2_mul_two_pow, Format.mantissaBits,
      Format.minExponent]
    omega
  have hamount : (e + j - e).toNat = j := by omega
  simp only [shiftToTargetExponent, htarget, shiftToExponent, hamount,
    ExtendedMantissa.ofMantissaAndAccuracy, shiftRight_exact]

/-- Rounding changes no number of 53 bits with zeros behind them. -/
theorem roundWithAccuracy_exact {m : Nat} (hm : IsFull m) {j : Nat} {e : Int}
    (he : -1074 ≤ e + j) (s : Sign) :
    roundWithAccuracy .binary64 s (m * 2 ^ j) e .exact = .finite s m (e + j) hm.pos := by
  have hagain := shiftToTargetExponent_exact hm (j := 0) (e := e + j) (by omega)
  rw [Nat.pow_zero, Nat.mul_one, Int.natCast_zero, Int.add_zero] at hagain
  have hne : m ≠ 0 := Nat.ne_of_gt hm.pos
  unfold roundWithAccuracy
  rw [shiftToTargetExponent_exact hm he]
  simp only [ExtendedMantissa.roundedMantissa, ExtendedMantissa.accuracy,
    Accuracy.roundToNearestEven, hagain, hne, dite_false]

theorem toNat_append_implicit (f : BitVec 52) : (1#1 ++ f).toNat = 2 ^ 52 + f.toNat := by
  rw [BitVec.toNat_append, ← Nat.shiftLeft_add_eq_or_of_lt f.isLt]
  rfl

/-- A number with a full mantissa as it is stored. -/
def stored (s : Sign) (m : Nat) (e : Int) (hm : IsFull m) : Float.Model :=
  .pack (.finite s m e hm.pos)

section Stored
variable {m : Nat} (hm : IsFull m) {e : Int} (hlow : -1074 ≤ e) (hhigh : e ≤ 971) (s : Sign)
include hlow hhigh

theorem pack_finite : UnpackedFloat.pack .binary64 (.finite s m e hm.pos) =
    packComponents .binary64 s (BitVec.ofNat 11 (e + 1075).toNat) (BitVec.ofNat 52 m) := by
  have hbias : e + Format.binary64.exponentBias + Format.binary64.mantissaBitsWithoutImplicit =
      e + 1075 := by
    simp only [Format.exponentBias]
    omega
  have hbits : m.log2 + 1 = Format.binary64.mantissaBits := by
    rw [hm.log2_eq]
    rfl
  have hsmall : ¬ 2 ^ Format.binary64.exponentBits ≤ (e + 1075).toNat + 1 := by
    show ¬ 2 ^ 11 ≤ (e + 1075).toNat + 1
    omega
  unfold UnpackedFloat.pack
  simp only [hbias, hbits, hsmall, ite_true, ite_false]

theorem unpack_stored : (stored s m e hm).unpack = .finite s m e hm.pos := by
  have hexp : (BitVec.ofNat 11 (e + 1075).toNat).toNat = (e + 1075).toNat := by
    rw [BitVec.toNat_ofNat, Nat.mod_eq_of_lt]
    omega
  have hmant : (1#1 ++ BitVec.ofNat 52 m).toNat = m := by
    have := hm.1
    have := hm.2
    rw [toNat_append_implicit, BitVec.toNat_ofNat]
    omega
  have hfull : BitVec.ofNat 11 (e + 1075).toNat ≠ -1#11 := by
    intro h
    have hnat := congrArg BitVec.toNat h
    rw [hexp] at hnat
    simp at hnat
    omega
  have hzero : BitVec.ofNat 11 (e + 1075).toNat ≠ 0#11 := by
    intro h
    have hnat := congrArg BitVec.toNat h
    rw [hexp] at hnat
    simp at hnat
    omega
  show UnpackedFloat.unpack .binary64 (UnpackedFloat.pack .binary64 _) = _
  rw [pack_finite hm hlow hhigh]
  unfold UnpackedFloat.unpack
  simp only [unpackMantissa_packComponents, unpackExponent_packComponents,
    unpackSign_packComponents, Sign.ofBitVec_toBitVec, hfull, hzero, if_false, hexp, hmant]
  congr 1
  simp only [Format.exponentBias]
  omega

/-- Sign, exponent and fraction side by side. -/
theorem toNat_toBits_stored : (stored s m e hm).toBits.toNat =
    s.toBitVec.toNat * 2 ^ 63 + (e + 1075).toNat * 2 ^ 52 + (m - 2 ^ 52) := by
  have hexp : (e + 1075).toNat < 2 ^ 11 := by omega
  have hmant : m % 2 ^ 52 = m - 2 ^ 52 := by
    have := hm.1
    have := hm.2
    omega
  show (UnpackedFloat.pack .binary64 (.finite s m e hm.pos)).toNat = _
  rw [pack_finite hm hlow hhigh]
  unfold packComponents
  rw [BitVec.toNat_append, ← Nat.shiftLeft_add_eq_or_of_lt (BitVec.isLt _), BitVec.toNat_append,
    ← Nat.shiftLeft_add_eq_or_of_lt (BitVec.isLt _), BitVec.toNat_ofNat, BitVec.toNat_ofNat,
    Nat.mod_eq_of_lt hexp, hmant, Nat.shiftLeft_eq, Nat.shiftLeft_eq]
  omega

end Stored

/-- A positive integer below 2^53 with a sign. -/
def whole (s : Sign) (n : Nat) (hn : 0 < n) (hlt : n < 2 ^ 53) : Float :=
  .ofModel (stored s (n * 2 ^ (52 - n.log2)) (n.log2 - 52) (isFull_mul_two_pow hn hlt))

section Whole
variable {n : Nat} (hn : 0 < n) (hlt : n < 2 ^ 53)

theorem ofUInt64_eq : Float.Model.ofUInt64 n.toUInt64 =
    stored .positive (n * 2 ^ (52 - n.log2)) (n.log2 - 52) (isFull_mul_two_pow hn hlt) := by
  have hlog := log2_lt_of_lt hn hlt
  have hnat : n.toUInt64.toNat = n := by
    show n % 2 ^ 64 = n
    omega
  have htarget : Format.binary64.targetExponent (totalExponent n 0) = n.log2 - 52 := by
    simp only [Format.targetExponent, totalExponent, Format.mantissaBits, Format.minExponent]
    omega
  have hamount : (0 - ((n.log2 : Int) - 52)).toNat = 52 - n.log2 := by omega
  have hexp : (0 : Int) - ((52 - n.log2 : Nat) : Int) = n.log2 - 52 := by omega
  have hround := roundWithAccuracy_exact (isFull_mul_two_pow hn hlt) (j := 0) (e := n.log2 - 52)
    (by omega) .positive
  rw [Nat.pow_zero, Nat.mul_one, Int.natCast_zero, Int.add_zero] at hround
  unfold Float.Model.ofUInt64 UnpackedFloat.ofUInt64 UnpackedFloat.ofNat UnpackedFloat.ofInt
    UnpackedFloat.normalize stored
  rw [hnat, Int.compare_eq_gt.mpr (by omega)]
  simp only [Int.toNat_natCast, UnpackedFloat.round, decreaseExponent, htarget, hamount,
    Nat.shiftLeft_eq, hexp, hround]

theorem ofNat_eq : Float.ofNat n = whole .positive n hn hlt := by
  have hlog := log2_lt_of_lt hn hlt
  have hm := isFull_mul_two_pow hn hlt
  show Float.ofScientific n false 0 = _
  rw [Float.ofScientific, dif_pos ⟨hlt, by decide⟩]
  simp only [Bool.false_eq_true, if_false]
  -- a number this small is multiplied by a power of ten, here by one
  have hone : Float.exactlyRepresentablePowersOfTen[0].toModel.unpack =
      .finite .positive (2 ^ 52) (-52) (by decide) := rfl
  have hround := roundWithAccuracy_exact hm (j := 52) (e := n.log2 - 52 + -52) (by omega)
    .positive
  have hexp : (n.log2 : Int) - 52 + -52 + (52 : Nat) = n.log2 - 52 := by omega
  simp only [hexp] at hround
  show Float.ofModel (.pack (mul .binary64 (Float.Model.ofUInt64 n.toUInt64).unpack
    Float.exactlyRepresentablePowersOfTen[0].toModel.unpack)) = _
  rw [hone, ofUInt64_eq hn hlt, unpack_stored hm (by omega) (by omega)]
  exact congrArg (fun u => Float.ofModel (.pack u)) hround

theorem neg_whole : -whole .positive n hn hlt = whole .negative n hn hlt := by
  have hlog := log2_lt_of_lt hn hlt
  have hunpack := unpack_stored (isFull_mul_two_pow hn hlt) (e := n.log2 - 52) (by omega)
    (by omega) .positive
  exact congrArg (fun u => Float.ofModel (.pack u.neg)) hunpack

variable (s : Sign)

theorem toNat_toBits_whole : (whole s n hn hlt).toBits.toNat =
    s.toBitVec.toNat * 2 ^ 63 + (n.log2 + 1023) * 2 ^ 52 + (n * 2 ^ (52 - n.log2) - 2 ^ 52) := by
  have hlog := log2_lt_of_lt hn hlt
  have hexp : ((n.log2 : Int) - 52 + 1075).toNat = n.log2 + 1023 := by omega
  have h := toNat_toBits_stored (isFull_mul_two_pow hn hlt) (e := n.log2 - 52) (by omega)
    (by omega) s
  rw [hexp] at h
  exact h

/-- The exponent as it is stored. -/
theorem exponent_whole :
    (((whole s n hn hlt).toBits >>> 52) &&& 0x7FF).toNat = n.log2 + 1023 := by
  have hlog := log2_lt_of_lt hn hlt
  have hfull := isFull_mul_two_pow hn hlt
  have := hfull.1
  have := hfull.2
  rw [UInt64.toNat_and, UInt64.toNat_shiftRight, toNat_toBits_whole]
  show (_ >>> 52) &&& (2 ^ 11 - 1) = _
  rw [Nat.and_two_pow_sub_one_eq_mod, Nat.shiftRight_eq_div_pow]
  omega

/-- The fraction as it is stored, without the leading bit. -/
theorem fraction_whole : ((whole s n hn hlt).toBits &&& 0xFFFFFFFFFFFFF).toNat =
    n * 2 ^ (52 - n.log2) - 2 ^ 52 := by
  have hfull := isFull_mul_two_pow hn hlt
  have := hfull.1
  have := hfull.2
  rw [UInt64.toNat_and, toNat_toBits_whole]
  show _ &&& (2 ^ 52 - 1) = _
  rw [Nat.and_two_pow_sub_one_eq_mod]
  omega

theorem sign_whole : ((whole s n hn hlt).toBits >>> 63).toNat = s.toBitVec.toNat := by
  have hlog := log2_lt_of_lt hn hlt
  have hfull := isFull_mul_two_pow hn hlt
  have := hfull.1
  have := hfull.2
  rw [UInt64.toNat_shiftRight, toNat_toBits_whole]
  show _ >>> 63 = _
  rw [Nat.shiftRight_eq_div_pow]
  omega

theorem isFinite_whole : isFinite (whole s n hn hlt) = true := by
  have hlog := log2_lt_of_lt hn hlt
  have hexp := exponent_whole hn hlt s
  unfold isFinite
  rw [bne_iff_ne]
  intro h
  rw [h] at hexp
  have hall : (0x7FF : UInt64).toNat = 2047 := rfl
  omega

theorem magnitude_whole :
    magnitude (whole s n hn hlt) = ⟨n * 2 ^ (52 - n.log2), n.log2 - 52⟩ := by
  have hlow := (isFull_mul_two_pow hn hlt).1
  unfold magnitude Binary.ofBits
  simp only [exponent_whole hn hlt s, fraction_whole hn hlt s]
  rw [if_neg (by omega), Binary.mk.injEq]
  constructor <;> omega

theorem isNegative_whole : isNegative (whole s n hn hlt) = (s.toBitVec.toNat == 1) := by
  unfold isNegative
  rw [← sign_whole hn hlt s, Bool.eq_iff_iff, beq_iff_eq, beq_iff_eq, ← UInt64.toNat_inj]
  rfl

theorem floor_magnitude_whole : (magnitude (whole s n hn hlt)).floor = n := by
  have hlog := log2_lt_of_lt hn hlt
  rw [magnitude_whole, Binary.floor]
  dsimp only
  split
  · have hk : n.log2 = 52 := by omega
    simp [hk]
  · have hk : (-((n.log2 : Int) - 52)).toNat = 52 - n.log2 := by omega
    rw [hk, Nat.shiftRight_eq_div_pow, Nat.mul_div_cancel _ (Nat.two_pow_pos _)]

theorem isWhole_whole : isWhole (whole s n hn hlt) = true := by
  have hlog := log2_lt_of_lt hn hlt
  have hk : (-((n.log2 : Int) - 52)).toNat = 52 - n.log2 := by omega
  rw [isWhole, isFinite_whole, magnitude_whole, Bool.true_and, Binary.isWhole, Bool.or_eq_true]
  right
  dsimp only
  rw [hk, Nat.one_shiftLeft, Nat.mul_mod_left]
  rfl

theorem truncate_whole : truncate (whole s n hn hlt) = s.apply n := by
  rw [truncate, floor_magnitude_whole, isNegative_whole]
  cases s <;> rfl

end Whole

theorem ofInt_eq_whole {n : Int} (hn : n ≠ 0) (hlt : n.natAbs < 2 ^ 53) :
    ∃ s, Float.ofInt n = whole s n.natAbs (Int.natAbs_pos.mpr hn) hlt ∧ s.apply n.natAbs = n := by
  cases n with
  | ofNat n => exact ⟨.positive, ofNat_eq _ hlt, rfl⟩
  | negSucc n =>
    refine ⟨.negative, ?_, rfl⟩
    rw [← neg_whole, ← ofNat_eq]
    rfl

theorem isWhole_ofInt {n : Int} (h : n.natAbs < 2 ^ 53) : isWhole (.ofInt n) = true := by
  by_cases hn : n = 0
  · subst hn
    decide +kernel
  · obtain ⟨s, hs, -⟩ := ofInt_eq_whole hn h
    rw [hs, isWhole_whole]

/-- An integer below 2^53 in size is a float with no loss. -/
theorem truncate_ofInt {n : Int} (h : n.natAbs < 2 ^ 53) : truncate (.ofInt n) = n := by
  by_cases hn : n = 0
  · subst hn
    decide +kernel
  · obtain ⟨s, hs, hn⟩ := ofInt_eq_whole hn h
    rw [hs, truncate_whole, hn]

end Switchboard.Decimal

namespace Switchboard

/-- A computed integer of the size of literals is that integer again. -/
theorem Number.ofFloat?_ofInt {n : Int} (h : n.natAbs < 9000000000000000) :
    Number.ofFloat? (.ofInt n) = some (.int n) := by
  have hlt : n.natAbs < 2 ^ 53 := by omega
  rw [Number.ofFloat?, Decimal.isWhole_ofInt hlt, Decimal.truncate_ofInt hlt]
  simp [h]

end Switchboard
