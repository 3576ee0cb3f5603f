import Switchboard.Proofs.Decimal.Rounding

/-! Binary64 numbers and their bits: what is stored is NaN, an infinity, a zero, or a sign and a
magnitude, and each is read back from the bits that it is stored in. -/
namespace Switchboard.Decimal
open Float.Model Float.Model.UnpackedFloat

theorem packComponents_unpack (b : BitVec 64) :
    packComponents .binary64 (.ofBitVec (@unpackSign .binary64 b))
      (@unpackExponent .binary64 b) (@unpackMantissa .binary64 b) = b := by
  simp only [packComponents, Sign.toBitVec_ofBitVec, unpackSign, unpackExponent, unpackMantissa,
    BitVec.extractLsb]
  ext i hi
  grind

theorem toNat_packComponents (s : Sign) (e : BitVec 11) (f : BitVec 52) :
    (packComponents .binary64 s e f).toNat =
      s.toBitVec.toNat * 2 ^ 63 + e.toNat * 2 ^ 52 + f.toNat := by
  unfold packComponents
  rw [BitVec.toNat_append, ← Nat.shiftLeft_add_eq_or_of_lt f.isLt, BitVec.toNat_append,
    ← Nat.shiftLeft_add_eq_or_of_lt e.isLt, Nat.shiftLeft_eq, Nat.shiftLeft_eq]
  omega

namespace Binary
variable {b : Binary}

/-- The exponent as it is stored; the lowest one is that of all shorter mantissas. -/
def storedExponent (b : Binary) : Nat := if 2 ^ 52 ≤ b.m then (b.q + 1075).toNat else 0

theorem Canonical.storedExponent_lt (hb : b.Canonical) : b.storedExponent < 2047 := by
  have := hb.high
  unfold storedExponent
  split <;> omega

theorem Canonical.pack_finite (hb : b.Canonical) (s : Sign) :
    UnpackedFloat.pack .binary64 (.finite s b.m b.q hb.pos) =
      packComponents .binary64 s (BitVec.ofNat 11 b.storedExponent) (BitVec.ofNat 52 b.m) := by
  by_cases hfull : 2 ^ 52 ≤ b.m
  · rw [Decimal.pack_finite ⟨hfull, hb.lt⟩ hb.low hb.high s, storedExponent, if_pos hfull]
  · have hq : b.q = -1074 := hb.full.resolve_right hfull
    have hbias : (b.q + Format.binary64.exponentBias +
        Format.binary64.mantissaBitsWithoutImplicit).toNat = 1 := by
      rw [hq]
      rfl
    have hbits : b.m.log2 + 1 ≠ Format.binary64.mantissaBits := by
      have hlog : b.m.log2 < 52 := (Nat.log2_lt (Nat.ne_of_gt hb.pos)).mpr (by omega)
      show b.m.log2 + 1 ≠ 53
      omega
    unfold UnpackedFloat.pack
    simp only [hbias, hbits, if_false]
    rw [if_neg (by decide), storedExponent, if_neg hfull]

theorem Canonical.unpack_packComponents (hb : b.Canonical) (s : Sign) :
    UnpackedFloat.unpack .binary64
      (packComponents .binary64 s (BitVec.ofNat 11 b.storedExponent) (BitVec.ofNat 52 b.m)) =
      .finite s b.m b.q hb.pos := by
  by_cases hfull : 2 ^ 52 ≤ b.m
  · have h := unpack_stored ⟨hfull, hb.lt⟩ hb.low hb.high s
    rw [← hb.pack_finite]
    exact h
  · have hq : b.q = -1074 := hb.full.resolve_right hfull
    have hm : (BitVec.ofNat 52 b.m).toNat = b.m := by
      rw [BitVec.toNat_ofNat]
      omega
    have hzero : BitVec.ofNat 52 b.m ≠ 0#52 := by
      intro h
      have := hb.pos
      rw [h] at hm
      simp at hm
      omega
    rw [storedExponent, if_neg hfull]
    unfold UnpackedFloat.unpack
    simp only [unpackMantissa_packComponents, unpackExponent_packComponents,
      unpackSign_packComponents, Sign.ofBitVec_toBitVec, hzero, hm]
    rw [if_neg (by decide), if_pos trivial, dif_neg not_false]
    congr 1
    rw [hq]
    rfl

/-- Every exponent but the highest belongs to numbers, of which only zero has no magnitude. -/
theorem exists_canonical {e : BitVec 11} {f : BitVec 52} (he : e ≠ -1#11)
    (hne : e ≠ 0#11 ∨ f ≠ 0#52) :
    ∃ b : Binary, b.Canonical ∧ BitVec.ofNat 11 b.storedExponent = e ∧ BitVec.ofNat 52 b.m = f := by
  have hf := f.isLt
  have htop : e.toNat ≠ 2047 := fun h => he (BitVec.eq_of_toNat_eq (by simpa using h))
  by_cases hzero : e = 0#11
  · have hpos : 0 < f.toNat := by
      refine Nat.pos_of_ne_zero fun h => hne.elim (absurd hzero) fun hfne => hfne ?_
      exact BitVec.eq_of_toNat_eq (by simpa using h)
    have hstored : storedExponent ⟨f.toNat, -1074⟩ = 0 := if_neg (Nat.not_le.mpr hf)
    refine ⟨⟨f.toNat, -1074⟩, ⟨hpos, ?_, ?_, ?_, .inl rfl⟩, ?_, ?_⟩
    iterate 3
      dsimp only
      omega
    · rw [hstored, hzero]
    · exact BitVec.eq_of_toNat_eq (by simp)
  · have hpos : e.toNat ≠ 0 := fun h => hzero (BitVec.eq_of_toNat_eq (by simpa using h))
    have hstored : storedExponent ⟨2 ^ 52 + f.toNat, e.toNat - 1075⟩ = e.toNat := by
      unfold storedExponent
      rw [if_pos (Nat.le_add_right _ _)]
      dsimp only
      omega
    refine ⟨⟨2 ^ 52 + f.toNat, e.toNat - 1075⟩,
      ⟨?_, ?_, ?_, ?_, .inr (Nat.le_add_right _ _)⟩, ?_, ?_⟩
    iterate 4
      dsimp only
      omega
    · rw [hstored]
      exact BitVec.eq_of_toNat_eq (by simp)
    · exact BitVec.eq_of_toNat_eq (by simpa using hf)

/-- A number with this magnitude. -/
def toFloat (b : Binary) (hb : b.Canonical) (s : Sign) : Float :=
  .ofModel (.pack (.finite s b.m b.q hb.pos))

end Binary

/-- Two numbers with the same bits are the same. -/
theorem eq_of_toBitVec {x y : Float} (h : x.toBits.toBitVec = y.toBits.toBitVec) : x = y := by
  obtain ⟨⟨⟨b⟩, hx⟩⟩ := x
  obtain ⟨⟨⟨c⟩, hy⟩⟩ := y
  cases h
  rfl

/-- What a number may be. -/
inductive Kind : Float → Prop
  | nan : Kind (.ofModel (.pack .notANumber))
  | infinity (s : Sign) : Kind (.ofModel (.pack (.infinity s)))
  | zero (s : Sign) : Kind (.ofModel (.pack (.zero s)))
  | finite (b : Binary) (hb : b.Canonical) (s : Sign) : Kind (b.toFloat hb s)

theorem kind (x : Float) : Kind x := by
  obtain ⟨b, hbits⟩ : ∃ b, x.toBits.toBitVec = b := ⟨_, rfl⟩
  have hvalid : Format.binary64.Valid b := hbits ▸ x.toModel.valid
  have hstored {u : UnpackedFloat} (hu : b = UnpackedFloat.pack .binary64 u)
      (hkind : Kind (.ofModel (.pack u))) : Kind x := by
    have hx : x = .ofModel (.pack u) := eq_of_toBitVec (hbits.trans hu)
    rwa [hx]
  have hsplit := packComponents_unpack b
  by_cases htop : @unpackExponent .binary64 b = -1#11
  · by_cases hzero : @unpackMantissa .binary64 b = 0#52
    · rw [htop, hzero] at hsplit
      exact hstored (u := .infinity _) hsplit.symm (.infinity _)
    · exact hstored (u := .notANumber) (hvalid.eq_packedNaN htop hzero) .nan
  · by_cases hzero : @unpackExponent .binary64 b = 0#11 ∧
        @unpackMantissa .binary64 b = 0#52
    · rw [hzero.1, hzero.2] at hsplit
      exact hstored (u := .zero _) hsplit.symm (.zero _)
    · obtain ⟨a, ha, he, hf⟩ := Binary.exists_canonical htop (not_and_or.mp hzero)
      rw [← he, ← hf, ← ha.pack_finite] at hsplit
      exact hstored hsplit.symm (.finite a ha _)

section Finite
variable {b : Binary} (hb : b.Canonical) (s : Sign)

theorem toNat_toBits_toFloat : (b.toFloat hb s).toBits.toNat =
    s.toBitVec.toNat * 2 ^ 63 + b.storedExponent * 2 ^ 52 + b.m % 2 ^ 52 := by
  have hexp := hb.storedExponent_lt
  show (UnpackedFloat.pack .binary64 (.finite s b.m b.q hb.pos)).toNat = _
  rw [hb.pack_finite, toNat_packComponents, BitVec.toNat_ofNat, BitVec.toNat_ofNat,
    Nat.mod_eq_of_lt (by omega : b.storedExponent < 2 ^ 11)]

theorem exponent_toFloat :
    (((b.toFloat hb s).toBits >>> 52) &&& 0x7FF).toNat = b.storedExponent := by
  have hexp := hb.storedExponent_lt
  rw [UInt64.toNat_and, UInt64.toNat_shiftRight, toNat_toBits_toFloat]
  show (_ >>> 52) &&& (2 ^ 11 - 1) = _
  rw [Nat.and_two_pow_sub_one_eq_mod, Nat.shiftRight_eq_div_pow]
  omega

theorem fraction_toFloat : ((b.toFloat hb s).toBits &&& 0xFFFFFFFFFFFFF).toNat = b.m % 2 ^ 52 := by
  rw [UInt64.toNat_and, toNat_toBits_toFloat]
  show _ &&& (2 ^ 52 - 1) = _
  rw [Nat.and_two_pow_sub_one_eq_mod]
  omega

theorem isFinite_toFloat : isFinite (b.toFloat hb s) = true := by
  have hexp := hb.storedExponent_lt
  have hstored := exponent_toFloat hb s
  unfold isFinite
  rw [bne_iff_ne]
  intro h
  rw [h] at hstored
  have hall : (0x7FF : UInt64).toNat = 2047 := rfl
  omega

theorem isNegative_toFloat : isNegative (b.toFloat hb s) = (s.toBitVec.toNat == 1) := by
  have hexp := hb.storedExponent_lt
  have hsign : ((b.toFloat hb s).toBits >>> 63).toNat = s.toBitVec.toNat := by
    rw [UInt64.toNat_shiftRight, toNat_toBits_toFloat]
    show _ >>> 63 = _
    rw [Nat.shiftRight_eq_div_pow]
    omega
  unfold isNegative
  rw [← hsign, Bool.eq_iff_iff, beq_iff_eq, beq_iff_eq, ← UInt64.toNat_inj]
  rfl

theorem magnitude_toFloat : magnitude (b.toFloat hb s) = b := by
  have hlow := hb.low
  have hlt := hb.lt
  unfold magnitude Binary.ofBits
  simp only [exponent_toFloat hb s, fraction_toFloat hb s]
  by_cases hfull : 2 ^ 52 ≤ b.m
  · have hexp : b.storedExponent = (b.q + 1075).toNat := if_pos hfull
    rw [hexp, if_neg (by omega)]
    exact congrArg₂ Binary.mk (by omega) (by omega)
  · have hexp : b.storedExponent = 0 := if_neg hfull
    have hq : b.q = -1074 := hb.full.resolve_right hfull
    rw [hexp, if_pos rfl]
    exact congrArg₂ Binary.mk (by omega) hq.symm

theorem unpack_toFloat : (b.toFloat hb s).toModel.unpack = .finite s b.m b.q hb.pos := by
  rw [← hb.unpack_packComponents, ← hb.pack_finite]
  rfl

theorem neg_toFloat : -b.toFloat hb s = b.toFloat hb (-s) :=
  congrArg (fun u : UnpackedFloat => Float.ofModel (.pack u.neg)) (unpack_toFloat hb s)

theorem beq_self_toFloat : (b.toFloat hb s == b.toFloat hb s) = true := by
  show UnpackedFloat.beq (b.toFloat hb s).toModel.unpack (b.toFloat hb s).toModel.unpack = true
  rw [unpack_toFloat]
  cases s <;> simp [UnpackedFloat.beq, UnpackedFloat.compare]

theorem beq_zero_toFloat : (b.toFloat hb s == 0) = false := by
  have hzero : (0 : Float).toModel.unpack = .zero .positive := rfl
  show UnpackedFloat.beq (b.toFloat hb s).toModel.unpack (0 : Float).toModel.unpack = false
  rw [unpack_toFloat, hzero]
  cases s <;> rfl

end Finite

theorem eq_of_compare_eq {u v : UnpackedFloat} (h : u.compare v = some .eq) :
    u = v ∨ ∃ s t, u = .zero s ∧ v = .zero t := by
  have hthen {e f : Int} {m n : Nat} (h : (compare e f).then (compare m n) = .eq) :
      e = f ∧ m = n :=
    ⟨Int.compare_eq_eq.mp (Ordering.then_eq_eq.mp h).1,
      Nat.compare_eq_eq.mp (Ordering.then_eq_eq.mp h).2⟩
  cases u with
  | notANumber => cases h
  | infinity s =>
    left
    cases v with
    | infinity t => cases s <;> cases t <;> first | rfl | cases h
    | _ => cases s <;> cases h
  | zero s =>
    cases v with
    | zero t => exact .inr ⟨s, t, rfl, rfl⟩
    | notANumber => cases h
    | infinity t => cases t <;> cases h
    | finite t n f hn => cases t <;> cases h
  | finite s m e hm =>
    left
    cases v with
    | finite t n f hn =>
      cases s <;> cases t
      · obtain ⟨rfl, rfl⟩ := hthen (Ordering.swap_eq_eq.mp (Option.some.inj h))
        rfl
      · cases h
      · cases h
      · obtain ⟨rfl, rfl⟩ := hthen (Option.some.inj h)
        rfl
    | notANumber => cases s <;> cases h
    | infinity t => cases s <;> cases t <;> cases h
    | zero t => cases s <;> cases h

theorem pack_unpack (x : Float) : Float.ofModel (.pack x.toModel.unpack) = x := by
  rcases kind x with _ | s | s | ⟨b, hb, s⟩
  · rfl
  · cases s <;> rfl
  · cases s <;> rfl
  · rw [unpack_toFloat]
    rfl

/-- Numbers that are equal are the same, but for the two zeros. -/
theorem eq_of_beq {x y : Float} (h : (x == y) = true) :
    x = y ∨ (x = 0 ∨ x = -0) ∧ (y = 0 ∨ y = -0) := by
  have hzero {x : Float} {s : Sign} (hx : x.toModel.unpack = .zero s) : x = 0 ∨ x = -0 := by
    rw [← pack_unpack x, hx]
    cases s
    · exact .inr rfl
    · exact .inl rfl
  rcases eq_of_compare_eq (beq_iff_eq.mp h) with heq | ⟨s, t, hx, hy⟩
  · exact .inl (by rw [← pack_unpack x, heq, pack_unpack])
  · exact .inr ⟨hzero hx, hzero hy⟩

end Switchboard.Decimal
