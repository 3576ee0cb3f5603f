import Switchboard.Proofs.Decimal.Storage

/-! The order of binary64 numbers. Each number but NaN has a place in a linear order, and numbers
compare as their places do. -/
namespace Switchboard.Decimal
open Float.Model Float.Model.UnpackedFloat

/-- The side of zero, then exponent and mantissa, both turned round below zero. -/
def place : UnpackedFloat → ℤ ×ₗ ℤ ×ₗ ℤ
  | .notANumber => toLex (0, toLex (0, 0))
  | .zero _ => toLex (0, toLex (0, 0))
  | .infinity s => toLex (s.apply 2, toLex (0, 0))
  | .finite s m e _ => toLex (s.apply 1, toLex (s.apply e, s.apply m))

theorem compare_toLex {α β : Type} [LinearOrder α] [LinearOrder β] (a c : α) (b d : β) :
    compare (toLex (a, b)) (toLex (c, d)) = (compare a c).then (compare b d) := rfl

theorem compare_neg (a b : ℤ) : compare (-a) (-b) = (compare a b).swap := by
  rcases lt_trichotomy a b with h | rfl | h
  · rw [Int.compare_eq_lt.mpr h, Int.compare_eq_gt.mpr (by omega)]
    rfl
  · rw [Int.compare_eq_eq.mpr rfl, Int.compare_eq_eq.mpr rfl]
    rfl
  · rw [Int.compare_eq_gt.mpr h, Int.compare_eq_lt.mpr (by omega)]
    rfl

theorem compare_natCast (m n : Nat) : compare (m : ℤ) (n : ℤ) = compare m n := by
  rcases Nat.lt_trichotomy m n with h | rfl | h
  · rw [Nat.compare_eq_lt.mpr h, Int.compare_eq_lt.mpr (by omega)]
  · rw [Nat.compare_eq_eq.mpr rfl, Int.compare_eq_eq.mpr rfl]
  · rw [Nat.compare_eq_gt.mpr h, Int.compare_eq_gt.mpr (by omega)]

theorem compare_finite (s : Sign) (m n : Nat) (e f : ℤ) (hm : 0 < m) (hn : 0 < n) :
    (UnpackedFloat.finite s m e hm).compare (.finite s n f hn) =
      some (compare (place (.finite s m e hm)) (place (.finite s n f hn))) := by
  cases s with
  | positive =>
    simp only [place, compare_toLex, Sign.apply, compare_natCast]
    rfl
  | negative =>
    simp only [place, compare_toLex, Sign.apply, compare_neg, compare_natCast]
    rw [← Ordering.swap_then]
    rfl

theorem compare_eq_compare_place {u v : UnpackedFloat} (hu : u ≠ .notANumber)
    (hv : v ≠ .notANumber) : u.compare v = some (compare (place u) (place v)) := by
  cases u with
  | notANumber => exact absurd rfl hu
  | infinity s =>
    cases v with
    | notANumber => exact absurd rfl hv
    | infinity t => cases s <;> cases t <;> rfl
    | zero t => cases s <;> rfl
    | finite t n f hn => cases s <;> cases t <;> rfl
  | zero s =>
    cases v with
    | notANumber => exact absurd rfl hv
    | infinity t => cases t <;> rfl
    | zero t => rfl
    | finite t n f hn => cases t <;> rfl
  | finite s m e hm =>
    cases v with
    | notANumber => exact absurd rfl hv
    | infinity t => cases s <;> cases t <;> rfl
    | zero t => cases s <;> rfl
    | finite t n f hn =>
      cases s <;> cases t
      · exact compare_finite .negative m n e f hm hn
      · rfl
      · rfl
      · exact compare_finite .positive m n e f hm hn

/-- The number has a place among the others. -/
def IsOrdered (x : Float) : Prop := x.toModel.unpack ≠ .notANumber

/-- The place of a number; the two zeros have the same one. -/
def position (x : Float) : ℤ ×ₗ ℤ ×ₗ ℤ := place x.toModel.unpack

section
variable {x y : Float} (hx : IsOrdered x) (hy : IsOrdered y)
include hx hy

theorem lt_iff_position_lt : x < y ↔ position x < position y := by
  have hlt : x < y ↔ x.toModel.unpack.compare y.toModel.unpack = some .lt :=
    decide_eq_true_iff.trans beq_iff_eq
  rw [hlt, compare_eq_compare_place hx hy, Option.some.injEq]
  exact compare_lt_iff_lt

theorem beq_iff_position_eq : (x == y) = true ↔ position x = position y := by
  show (x.toModel.unpack.compare y.toModel.unpack == some .eq) = true ↔ _
  rw [beq_iff_eq, compare_eq_compare_place hx hy, Option.some.injEq]
  exact compare_eq_iff_eq

end

theorem isOrdered_of_isFinite {x : Float} (h : isFinite x = true) : IsOrdered x := by
  rcases kind x with _ | s | s | ⟨b, hb, s⟩
  · exact absurd h (by decide +kernel)
  · cases s <;> exact absurd h (by decide +kernel)
  · cases s <;> exact nofun
  · unfold IsOrdered
    rw [unpack_toFloat]
    exact nofun

theorem isOrdered_pack {u : UnpackedFloat} (hu : u ≠ .notANumber) :
    IsOrdered (.ofModel (.pack u)) := by
  -- NaN has the highest exponent, as infinities have, and some bit of the mantissa
  have hparts {s : Sign} {e : BitVec 11} {f : BitVec 52} (h : e = -1#11 → f = 0#52) :
      UnpackedFloat.unpack .binary64 (packComponents .binary64 s e f) ≠ .notANumber := by
    unfold UnpackedFloat.unpack
    simp only [unpackMantissa_packComponents, unpackExponent_packComponents]
    split_ifs with he hf
    · exact nofun
    · exact absurd (h he) hf
    all_goals exact nofun
  show UnpackedFloat.unpack .binary64 (UnpackedFloat.pack .binary64 u) ≠ .notANumber
  unfold UnpackedFloat.pack
  split
  · exact absurd rfl hu
  · exact hparts fun _ => rfl
  · exact hparts fun _ => rfl
  · next s m e _ =>
    dsimp only
    split_ifs with hhigh hfull
    · exact hparts fun _ => rfl
    · refine hparts fun h => absurd (congrArg BitVec.toNat h) ?_
      have hlow : ¬2 ^ 11 ≤ (e + Format.binary64.exponentBias +
          Format.binary64.mantissaBitsWithoutImplicit).toNat + 1 := hhigh
      have hall : (-1#11).toNat = 2047 := rfl
      rw [hall, BitVec.toNat_ofNat]
      omega
    · exact hparts fun h => absurd h (by decide)

theorem isOrdered_neg {x : Float} (h : IsOrdered x) : IsOrdered (-x) := by
  refine isOrdered_pack ?_
  unfold IsOrdered at h
  cases hu : x.toModel.unpack with
  | notANumber => exact absurd hu h
  | _ => exact nofun

theorem roundWithAccuracy_ne_notANumber (spec : Float.Model.Format) (s : Sign) (m : Nat) (e : ℤ)
    (acc : Accuracy) : roundWithAccuracy spec s m e acc ≠ .notANumber := by
  unfold roundWithAccuracy
  dsimp only
  split_ifs <;> exact nofun

/-- A product of two numbers is rounded to a number or to an infinity. -/
theorem mul_finite_ne_notANumber (spec : Float.Model.Format) (s t : Sign) {m n : Nat} (e f : ℤ)
    (hm : 0 < m) (hn : 0 < n) :
    UnpackedFloat.mul spec (.finite s m e hm) (.finite t n f hn) ≠ UnpackedFloat.notANumber :=
  roundWithAccuracy_ne_notANumber spec (s * t) (m * n) (e + f) .exact

theorem isOrdered_ofNat (n : Nat) : IsOrdered (.ofNat n) := by
  by_cases hlt : n < 2 ^ 53
  · rcases Nat.eq_zero_or_pos n with rfl | hn
    · exact isOrdered_of_isFinite (by decide +kernel)
    · rw [ofNat_eq hn hlt]
      exact isOrdered_of_isFinite (isFinite_whole hn hlt _)
  · have hne : n ≠ 0 := fun h => hlt (h ▸ by decide)
    have hmodel : UnpackedFloat.ofScientific .binary64 n 0 ≠ .notANumber := by
      have hlow : ¬(0 : ℤ) < -((2 ^ Format.binary64.exponentBits : ℤ) + n.log2) := by
        have : (0 : ℤ) ≤ 2 ^ Format.binary64.exponentBits := by positivity
        omega
      rw [UnpackedFloat.ofScientific, dif_neg hne, if_neg (by decide), if_neg hlow,
        if_pos (Int.le_refl 0)]
      exact mul_finite_ne_notANumber _ _ _ _ _ _ _
    show IsOrdered (.ofScientific n false 0)
    rw [Float.ofScientific, dif_neg fun h => hlt h.1]
    exact isOrdered_pack hmodel

/-- Integers are rounded, to an infinity at worst. -/
theorem isOrdered_ofInt (n : Int) : IsOrdered (.ofInt n) := by
  cases n with
  | ofNat n => exact isOrdered_ofNat n
  | negSucc n => exact isOrdered_neg (isOrdered_ofNat _)

end Switchboard.Decimal
