import Switchboard.Proofs.Decimal.Integers

/-! Rounding to the nearest binary64 number. The residual bits of a mantissa say where the number
that it was cut from lies; so they round it as the number itself is to be rounded, and whatever lies
nearest to a number that is stored is rounded to it. -/
namespace Switchboard.Decimal
open Float.Model Float.Model.UnpackedFloat

/-- Where a number lies between one mantissa and the next, `t` of the way. -/
def Describes : Accuracy → ℚ → Prop
  | .exact, t => t = 0
  | .inexact .lt, t => 0 < t ∧ t < 1 / 2
  | .inexact .eq, t => t = 1 / 2
  | .inexact .gt, t => 1 / 2 < t ∧ t < 1

/-- The mantissa is `w` cut to an integer, and its bits say what was cut off. -/
def Tracks (em : ExtendedMantissa) (w : ℚ) : Prop := Describes em.accuracy (w - em.mantissa)

theorem Describes.bounds {acc : Accuracy} {t : ℚ} (h : Describes acc t) : 0 ≤ t ∧ t < 1 := by
  unfold Describes at h
  split at h <;> constructor <;> linarith

theorem Tracks.lower {em : ExtendedMantissa} {w : ℚ} (h : Tracks em w) : em.mantissa ≤ w := by
  have := (Describes.bounds h).1
  linarith

theorem Tracks.upper {em : ExtendedMantissa} {w : ℚ} (h : Tracks em w) : w < em.mantissa + 1 := by
  have := (Describes.bounds h).2
  linarith

theorem tracks_ofMantissaAndAccuracy {m : Nat} {acc : Accuracy} {w : ℚ}
    (h : Describes acc (w - m)) : Tracks (.ofMantissaAndAccuracy m acc) w := by
  rcases acc with _ | o
  · exact h
  · cases o <;> exact h

theorem Tracks.shiftRightOne {em : ExtendedMantissa} {w : ℚ} (h : Tracks em w) :
    Tracks em.shiftRightOne (w / 2) := by
  obtain ⟨m, r, s⟩ := em
  -- the last bit and the residual bits say which equation or pair of bounds is left
  rcases Nat.mod_two_eq_zero_or_one m with hm | hm
  · have hhalf : (m : ℚ) = 2 * (m / 2 : Nat) := by
      have : m = 2 * (m / 2) := by omega
      exact_mod_cast this
    cases r <;> cases s <;>
      simp only [Tracks, Describes, ExtendedMantissa.accuracy, ExtendedMantissa.shiftRightOne, hm,
        bne_self_eq_false, Bool.or_self, Bool.or_true, Bool.or_false] at h ⊢ <;>
      first | constructor <;> linarith | linarith
  · have hhalf : (m : ℚ) = 2 * (m / 2 : Nat) + 1 := by
      have : m = 2 * (m / 2) + 1 := by omega
      exact_mod_cast this
    have hone : (1 != 0) = true := rfl
    cases r <;> cases s <;>
      simp only [Tracks, Describes, ExtendedMantissa.accuracy, ExtendedMantissa.shiftRightOne, hm,
        hone, Bool.or_self, Bool.or_true, Bool.or_false] at h ⊢ <;>
      first | constructor <;> linarith | linarith

theorem Tracks.shiftRight {em : ExtendedMantissa} {w : ℚ} (h : Tracks em w) (n : Nat) :
    Tracks (em >>> n) (w / 2 ^ n) := by
  show Tracks (n.repeat ExtendedMantissa.shiftRightOne em) _
  induction n with
  | zero => simpa [Nat.repeat] using h
  | succ n ih =>
    rw [pow_succ, ← div_div]
    exact ih.shiftRightOne

/-- No integer is nearer to `w`; halfway between two, the even one is taken. -/
structure IsNearest (m : Nat) (w : ℚ) : Prop where
  lower : m - 1 / 2 ≤ w
  upper : w ≤ m + 1 / 2
  even_of_lower : w = m - 1 / 2 → m % 2 = 0
  even_of_upper : w = m + 1 / 2 → m % 2 = 0

/-- The bits round a mantissa to the integer nearest to what it was cut from. -/
theorem Tracks.roundedMantissa_eq {em : ExtendedMantissa} {w : ℚ} {m : Nat} (h : Tracks em w)
    (hm : IsNearest m w) : em.roundedMantissa = m := by
  have hlow := hm.lower
  have hup := hm.upper
  obtain ⟨k, r, s⟩ := em
  -- the two integers are as far apart as both are from `w`
  have hclose (hlt : (k : ℚ) < m + 1) (hgt : (m : ℚ) < k + 2) : m = k ∨ m = k + 1 := by
    have : k < m + 1 := by exact_mod_cast hlt
    have : m < k + 2 := by exact_mod_cast hgt
    omega
  cases r <;> cases s <;>
    simp only [Tracks, Describes, ExtendedMantissa.accuracy, ExtendedMantissa.roundedMantissa,
      Accuracy.roundToNearestEven] at h ⊢
  · rcases hclose (by linarith) (by linarith) with rfl | rfl
    · rfl
    · push_cast at hlow
      linarith
  · rcases hclose (by linarith) (by linarith) with rfl | rfl
    · rfl
    · push_cast at hlow
      linarith
  · rcases hclose (by linarith) (by linarith) with rfl | rfl
    · have := hm.even_of_upper (by linarith)
      omega
    · have := hm.even_of_lower (by push_cast; linarith)
      omega
  · rcases hclose (by linarith) (by linarith) with rfl | rfl
    · linarith
    · rfl

namespace Binary

/-- The number itself. -/
def value (x : Binary) : ℚ := x.m * 2 ^ x.q

/-- A magnitude as it is stored: of full length, unless the exponent is as low as can be. -/
structure Canonical (x : Binary) : Prop where
  pos : 0 < x.m
  lt : x.m < 2 ^ 53
  low : -1074 ≤ x.q
  high : x.q ≤ 971
  full : x.q = -1074 ∨ 2 ^ 52 ≤ x.m

/-- Four times the distance down to the numbers that are nearer to the number below. -/
def gap (x : Binary) : Nat := if x.narrowBelow then 1 else 2

/-- No stored number is nearer to `v` than `x`; halfway between two, the even one is taken. -/
structure Attracts (x : Binary) (v : ℚ) : Prop where
  lower : 4 * x.m - x.gap ≤ 4 * (v / 2 ^ x.q)
  upper : 4 * (v / 2 ^ x.q) ≤ 4 * x.m + 2
  even_of_lower : 4 * (v / 2 ^ x.q) = 4 * x.m - x.gap → x.m % 2 = 0
  even_of_upper : 4 * (v / 2 ^ x.q) = 4 * x.m + 2 → x.m % 2 = 0

end Binary

theorem targetExponent_eq (m : Nat) (e : Int) :
    Format.binary64.targetExponent (totalExponent m e) = max (m.log2 + e - 52) (-1074) := by
  simp only [Format.targetExponent, totalExponent, Format.mantissaBits, Format.minExponent]
  omega

/-- Moving the unit up by `n` bits. -/
theorem div_zpow_add (v : ℚ) (e : Int) (n : Nat) : v / 2 ^ (e + n) = v / 2 ^ e / 2 ^ n := by
  rw [zpow_add₀ (by norm_num), zpow_natCast, div_div]

section Shift
variable {m : Nat} {e : Int} {acc : Accuracy} {v : ℚ}
variable (hacc : Describes acc (v / 2 ^ e - m))
include hacc

theorem tracks_shiftToExponent {t : Int} (he : e ≤ t) :
    Tracks (shiftToExponent m e acc t).1 (v / 2 ^ t) ∧ (shiftToExponent m e acc t).2 = t := by
  have ht : e + ((t - e).toNat : Int) = t := by omega
  refine ⟨?_, ht⟩
  have h := (tracks_ofMantissaAndAccuracy hacc).shiftRight (t - e).toNat
  rwa [← div_zpow_add, ht] at h

/-- At its target exponent a number takes 53 bits … -/
theorem lt_of_targetExponent {t : Int}
    (ht : Format.binary64.targetExponent (totalExponent m e) = t) : v < 2 ^ (t + 53) := by
  rw [targetExponent_eq] at ht
  have hm : (m : ℚ) + 1 ≤ 2 ^ (m.log2 + 1) := by exact_mod_cast Nat.lt_log2_self (n := m)
  have hv : v / 2 ^ e < 2 ^ (m.log2 + 1) := by linarith [hacc.bounds.2]
  rw [div_lt_iff₀ (by positivity), ← zpow_natCast, ← zpow_add₀ (by norm_num)] at hv
  exact hv.trans_le (zpow_le_zpow_right₀ (by norm_num) (by push_cast; omega))

/-- … and no less, but at the lowest exponent. -/
theorem le_of_targetExponent {t : Int}
    (ht : Format.binary64.targetExponent (totalExponent m e) = t) (he : e ≤ t)
    (hlow : -1074 < t) : 2 ^ (t + 52) ≤ v := by
  rw [targetExponent_eq] at ht
  have hm : m ≠ 0 := by
    rintro rfl
    rw [Nat.log2_zero] at ht
    omega
  have hpow : (2 : ℚ) ^ m.log2 ≤ m := by exact_mod_cast Nat.log2_self_le hm
  have hv : 2 ^ m.log2 ≤ v / 2 ^ e := by linarith [hacc.bounds.1]
  rw [le_div_iff₀ (by positivity), ← zpow_natCast, ← zpow_add₀ (by norm_num)] at hv
  have hexp : t + 52 = m.log2 + e := by omega
  rwa [hexp]

end Shift

/-- A mantissa of at most 53 bits stays as it is; one bit more is moved into the exponent. -/
theorem shiftToTargetExponent_of_lt {m : Nat} {t : Int} (hm : m < 2 ^ 53) (ht : -1074 ≤ t) :
    shiftToTargetExponent .binary64 m t .exact = (⟨m, false, false⟩, t) := by
  have hlog : m.log2 ≤ 52 := by
    rcases Nat.eq_zero_or_pos m with rfl | hpos
    · simp
    · exact Nat.le_of_lt_succ (log2_lt_of_lt hpos hm)
  have hamount : (max ((m.log2 : Int) + t - 52) (-1074) - t).toNat = 0 := by omega
  simp only [shiftToTargetExponent, targetExponent_eq, shiftToExponent, hamount,
    ExtendedMantissa.ofMantissaAndAccuracy, Int.natCast_zero, Int.add_zero]
  rfl

theorem isFull_two_pow : IsFull (2 ^ 52) := ⟨Nat.le_refl _, by decide⟩

theorem shiftToTargetExponent_carry {t : Int} (ht : -1074 ≤ t) :
    shiftToTargetExponent .binary64 (2 ^ 53) t .exact = (⟨2 ^ 52, false, false⟩, t + 1) :=
  shiftToTargetExponent_exact isFull_two_pow (j := 1) (by omega)

namespace Binary
variable {x : Binary} {v : ℚ}

theorem Attracts.isNearest (hv : x.Attracts v) : IsNearest x.m (v / 2 ^ x.q) := by
  obtain ⟨hlow, hup, hlowEven, hupEven⟩ := hv
  have hgap : x.gap = 1 ∨ x.gap = 2 := by
    unfold gap
    split <;> simp
  rcases hgap with hgap | hgap <;> rw [hgap] at hlow hlowEven <;> push_cast at hlow hlowEven
  · exact ⟨by linarith, by linarith, fun h => absurd hlow (by linarith),
      fun h => hupEven (by linarith)⟩
  · exact ⟨by linarith, by linarith, fun h => hlowEven (by linarith),
      fun h => hupEven (by linarith)⟩

/-- The exponent that a number is brought to is that of the stored number nearest to it, or one
less where the mantissa is about to carry. -/
theorem Attracts.cases (hv : x.Attracts v) (hx : x.Canonical) {t : Int} (hlow : -1074 ≤ t)
    (hlt : v < 2 ^ (t + 53)) (hle : -1074 < t → 2 ^ (t + 52) ≤ v) :
    t = x.q ∧ IsNearest x.m (v / 2 ^ t) ∨
      t + 1 = x.q ∧ x.m = 2 ^ 52 ∧ IsNearest (2 ^ 53) (v / 2 ^ t) := by
  have hunit : (0 : ℚ) < 2 ^ x.q := by positivity
  have hunits {a : Int} (n : Nat) (ha : a = x.q + n) : (2 : ℚ) ^ a = 2 ^ n * 2 ^ x.q := by
    rw [ha, zpow_add₀ (by norm_num), zpow_natCast, mul_comm]
  have hnear := hv.isNearest
  rcases lt_trichotomy t x.q with h | rfl | h
  · -- below its own exponent only the least full mantissa is nearest to a number
    have hsmall (n : Nat) (hn : t + 53 ≤ x.q + n) : v / 2 ^ x.q < 2 ^ n := by
      rw [div_lt_iff₀ hunit, ← hunits n rfl]
      exact hlt.trans_le (zpow_le_zpow_right₀ (by norm_num) hn)
    have hfull : 2 ^ 52 ≤ x.m := hx.full.resolve_left (by omega)
    have hm : x.m = 2 ^ 52 := by
      have hlt : (x.m : ℚ) < 2 ^ 52 + 1 := by linarith [hnear.lower, hsmall 52 (by omega)]
      have : x.m < 2 ^ 52 + 1 := by exact_mod_cast hlt
      omega
    have hgap : x.gap = 1 := by
      have hnarrow : x.narrowBelow = true := by
        rw [narrowBelow, hm]
        simp
        omega
      rw [gap, if_pos hnarrow]
    have hbelow := hv.lower
    rw [hm, hgap] at hbelow
    push_cast at hbelow
    have ht : t + 1 = x.q := by
      by_contra hne
      linarith [hsmall 51 (by omega)]
    refine .inr ⟨ht, hm, ?_⟩
    have htwice : v / 2 ^ t = 2 * (v / 2 ^ x.q) := by
      rw [← ht, zpow_add_one₀ (by norm_num)]
      field_simp
    have hless := hsmall 52 (by omega)
    rw [htwice]
    exact ⟨by push_cast; linarith, by push_cast; linarith, fun _ => by decide, fun _ => by decide⟩
  · exact .inl ⟨rfl, hnear⟩
  · -- above it the mantissa would be too short
    have hbottom := hx.low
    have hlarge : 2 ^ 53 ≤ v / 2 ^ x.q := by
      rw [le_div_iff₀ hunit, ← hunits 53 rfl]
      exact (zpow_le_zpow_right₀ (by norm_num) (by omega)).trans (hle (by omega))
    have hm : (x.m : ℚ) + 1 ≤ 2 ^ 53 := by exact_mod_cast hx.lt
    linarith [hnear.upper]

/-- What lies nearest to a stored number is rounded to it. -/
theorem Attracts.roundWithAccuracy_eq (hv : x.Attracts v) (hx : x.Canonical) {m : Nat} {e : Int}
    {acc : Accuracy} (hacc : Describes acc (v / 2 ^ e - m))
    (he : e ≤ Format.binary64.targetExponent (totalExponent m e)) (s : Sign) :
    roundWithAccuracy .binary64 s m e acc = .finite s x.m x.q hx.pos := by
  obtain ⟨t, ht⟩ : ∃ t, Format.binary64.targetExponent (totalExponent m e) = t := ⟨_, rfl⟩
  rw [ht] at he
  have hlow : -1074 ≤ t := by
    rw [targetExponent_eq] at ht
    omega
  obtain ⟨htracks, hexp⟩ := tracks_shiftToExponent hacc he
  have hne : x.m ≠ 0 := Nat.ne_of_gt hx.pos
  unfold roundWithAccuracy
  simp only [shiftToTargetExponent.eq_1 _ m e, ht, hexp]
  rcases hv.cases hx hlow (lt_of_targetExponent hacc ht) (le_of_targetExponent hacc ht he) with
    ⟨rfl, hnear⟩ | ⟨hq, hm, hnear⟩
  · simp only [htracks.roundedMantissa_eq hnear, shiftToTargetExponent_of_lt hx.lt hx.low, hne,
      dite_false]
  · simp only [htracks.roundedMantissa_eq hnear, shiftToTargetExponent_carry hlow, ← hm, hne, hq,
      dite_false]

/-- A product is rounded to nearest. -/
theorem Attracts.mul_eq {m₁ m₂ : Nat} {e₁ e₂ : Int} (h₁ : 0 < m₁) (h₂ : 0 < m₂)
    (hv : x.Attracts (m₁ * 2 ^ e₁ * (m₂ * 2 ^ e₂))) (hx : x.Canonical) (hm : 2 ^ 52 ≤ m₁ * m₂) :
    mul .binary64 (.finite .positive m₁ e₁ h₁) (.finite .positive m₂ e₂ h₂) =
      .finite .positive x.m x.q hx.pos := by
  have hlog : 52 ≤ (m₁ * m₂).log2 := (Nat.le_log2 (by omega)).mpr hm
  have hexact : Describes .exact
      ((m₁ * 2 ^ e₁ * (m₂ * 2 ^ e₂) : ℚ) / 2 ^ (e₁ + e₂) - (m₁ * m₂ : Nat)) := by
    show _ = 0
    rw [zpow_add₀ (by norm_num)]
    push_cast
    field_simp
    ring
  refine hv.roundWithAccuracy_eq hx hexact ?_ _
  rw [targetExponent_eq]
  omega

end Binary

theorem describes_accuracyOfFraction {num den : Nat} (hlt : num < den) :
    Describes (accuracyOfFraction num den) (num / den) := by
  have hden : (0 : ℚ) < den := by exact_mod_cast Nat.zero_lt_of_lt hlt
  unfold accuracyOfFraction
  split
  · next h =>
    show _ = (0 : ℚ)
    simp [h]
  · next h =>
    have hnum : (0 : ℚ) < num := by exact_mod_cast Nat.pos_of_ne_zero h
    have hone : (num : ℚ) / den < 1 := (div_lt_one hden).mpr (by exact_mod_cast hlt)
    rcases hcmp : compare (2 * num) den with _ | _ | _
    · have : (2 * num : ℚ) < den := by exact_mod_cast Nat.compare_eq_lt.mp hcmp
      exact ⟨by positivity, by rw [div_lt_iff₀ hden]; linarith⟩
    · have : (2 * num : ℚ) = den := by exact_mod_cast Nat.compare_eq_eq.mp hcmp
      show _ = (1 / 2 : ℚ)
      rw [div_eq_iff hden.ne']
      linarith
    · have : (den : ℚ) < 2 * num := by exact_mod_cast Nat.compare_eq_gt.mp hcmp
      exact ⟨by rw [lt_div_iff₀ hden]; linarith, hone⟩

/-- A quotient is taken to as many places as are kept of it … -/
theorem two_pow_le_div {m₁ m₂ k : Nat} (h₁ : 0 < m₁) (h₂ : 0 < m₂)
    (hk : m₂.log2 + 53 ≤ m₁.log2 + k) : 2 ^ 52 ≤ m₁ <<< k / m₂ := by
  rw [Nat.le_div_iff_mul_le h₂, Nat.shiftLeft_eq]
  calc 2 ^ 52 * m₂ ≤ 2 ^ 52 * 2 ^ (m₂.log2 + 1) := Nat.mul_le_mul_left _ Nat.lt_log2_self.le
    _ = 2 ^ (m₂.log2 + 53) := by rw [← Nat.pow_add]; congr 1; omega
    _ ≤ 2 ^ (m₁.log2 + k) := Nat.pow_le_pow_right (by decide) hk
    _ = 2 ^ m₁.log2 * 2 ^ k := Nat.pow_add ..
    _ ≤ m₁ * 2 ^ k := Nat.mul_le_mul_right _ (Nat.log2_self_le h₁.ne')

/-- … and the remainder says what is left. -/
theorem describes_divCore {m₁ m₂ : Nat} (e₁ e₂ : Int) (h₁ : 0 < m₁) (h₂ : 0 < m₂) :
    let d := divCore .binary64 m₁ e₁ m₂ e₂
    Describes d.2.2 (m₁ * 2 ^ e₁ / (m₂ * 2 ^ e₂) / 2 ^ d.2.1 - d.1) ∧
      d.2.1 ≤ Format.binary64.targetExponent (totalExponent d.1 d.2.1) := by
  obtain ⟨t, ht⟩ : ∃ t, min (e₁ - e₂) (Format.binary64.targetExponent
      (totalExponent m₁ e₁ - totalExponent m₂ e₂)) = t := ⟨_, rfl⟩
  obtain ⟨k, hk⟩ : ∃ k, (e₁ - e₂ - t).toNat = k := ⟨_, rfl⟩
  have hshift : e₁ - e₂ - t = k := by omega
  simp only [divCore, ht, hk]
  have hden : (m₂ : ℚ) ≠ 0 := by exact_mod_cast h₂.ne'
  constructor
  · have hquot : (m₁ * 2 ^ e₁ / (m₂ * 2 ^ e₂) / 2 ^ t - (m₁ <<< k / m₂ : Nat) : ℚ) =
        (m₁ <<< k % m₂ : Nat) / m₂ := by
      have hsplit : ((m₁ <<< k : Nat) : ℚ) =
          m₂ * (m₁ <<< k / m₂ : Nat) + (m₁ <<< k % m₂ : Nat) := by
        exact_mod_cast (Nat.div_add_mod (m₁ <<< k) m₂).symm
      have hpow : (2 : ℚ) ^ e₁ = 2 ^ e₂ * 2 ^ t * 2 ^ k := by
        rw [← zpow_natCast, ← hshift, ← zpow_add₀ (by norm_num), ← zpow_add₀ (by norm_num)]
        congr 1
        omega
      have hvalue : (m₁ * 2 ^ e₁ / (m₂ * 2 ^ e₂) / 2 ^ t : ℚ) = (m₁ <<< k : Nat) / m₂ := by
        rw [hpow, Nat.shiftLeft_eq]
        push_cast
        field_simp
      rw [hvalue, div_sub' hden, hsplit]
      congr 1
      linarith
    rw [hquot]
    exact describes_accuracyOfFraction (Nat.mod_lt _ h₂)
  · have htotal : Format.binary64.targetExponent (totalExponent m₁ e₁ - totalExponent m₂ e₂) =
        max (m₁.log2 + e₁ - (m₂.log2 + e₂) - 53) (-1074) := by
      simp only [Format.targetExponent, totalExponent, Format.mantissaBits, Format.minExponent]
      omega
    rw [htotal] at ht
    rw [targetExponent_eq]
    by_cases hlow : t ≤ -1074
    · omega
    · have hfull := two_pow_le_div h₁ h₂ (k := k) (by omega)
      have hlog : 52 ≤ (m₁ <<< k / m₂).log2 := (Nat.le_log2 (by omega)).mpr hfull
      omega

namespace Binary
variable {x : Binary}

/-- A quotient is rounded to nearest. -/
theorem Attracts.div_eq {m₁ m₂ : Nat} {e₁ e₂ : Int} (h₁ : 0 < m₁) (h₂ : 0 < m₂)
    (hv : x.Attracts (m₁ * 2 ^ e₁ / (m₂ * 2 ^ e₂))) (hx : x.Canonical) :
    div .binary64 (.finite .positive m₁ e₁ h₁) (.finite .positive m₂ e₂ h₂) =
      .finite .positive x.m x.q hx.pos :=
  have hcore := describes_divCore e₁ e₂ h₁ h₂
  hv.roundWithAccuracy_eq hx hcore.1 hcore.2 _

end Binary

end Switchboard.Decimal
