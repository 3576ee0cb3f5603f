import Switchboard.Decimal.Shortest
import Switchboard.Proofs.Decimal.Nearest

/-! The digits found for a stored magnitude lie nearer to it than to any other. -/
namespace Switchboard.Decimal

/-- The number itself. -/
def Dec.value (d : Dec) : ℚ := d.digits * 10 ^ d.exp

/-- A power with a negative exponent is one with a positive one, moved to the other side. -/
theorem zpow_eq_div_toNat {b : ℚ} (hb : b ≠ 0) (i : Int) :
    b ^ i = b ^ i.toNat / b ^ (-i).toNat := by
  rw [← zpow_natCast, ← zpow_natCast, ← zpow_sub₀ hb]
  congr 1
  omega

/-- Scaled naturals are compared as the numbers they stand for. -/
theorem compareScaled_eq (a : Nat) (i : Int) (n : Nat) (j : Int) :
    compareScaled a i n j = compare ((a : ℚ) * 10 ^ i) (n * 2 ^ j) := by
  obtain ⟨c, hc⟩ : ∃ c : ℚ, c = 10 ^ (-i).toNat * 2 ^ (-j).toNat := ⟨_, rfl⟩
  have hpos : 0 < c := by rw [hc]; positivity
  have hleft : (((a * Nat.pow 10 i.toNat) <<< (-j).toNat : Nat) : ℚ) = a * 10 ^ i * c := by
    rw [hc, zpow_eq_div_toNat (by norm_num), Nat.shiftLeft_eq, Nat.pow_eq]
    push_cast
    field_simp
  have hright : (((n * Nat.pow 10 (-i).toNat) <<< j.toNat : Nat) : ℚ) = n * 2 ^ j * c := by
    rw [hc, zpow_eq_div_toNat (by norm_num), Nat.shiftLeft_eq, Nat.pow_eq]
    push_cast
    field_simp
  rw [compareScaled, ← cmp_eq_compare, ← Nat.strictMono_cast (α := ℚ) |>.cmp_map_eq, hleft,
    hright, cmp_mul_pos_right hpos, cmp_eq_compare]

namespace Binary
variable {x : Binary}

theorem gap_le (x : Binary) : x.gap ≤ 2 := by
  unfold gap
  split <;> decide

/-- The decimal is nearer to `x` than to any other number. -/
theorem attracts_of_readsBack {d : Dec} (hm : 0 < x.m) (h : x.readsBack d = true) :
    x.Attracts d.value := by
  have hgap := x.gap_le
  obtain ⟨u, hu⟩ : ∃ u : ℚ, u = 2 ^ x.q := ⟨_, rfl⟩
  have hunit : 0 < u := by rw [hu]; positivity
  have hquarter : (2 : ℚ) ^ (x.q - 2) = u / 4 := by
    rw [zpow_sub₀ (by norm_num), hu]
    norm_num
  have hcast : ((4 * x.m - x.gap : Nat) : ℚ) = 4 * x.m - x.gap := by
    rw [Nat.cast_sub (by omega)]
    push_cast
    rfl
  obtain ⟨w, hw⟩ : ∃ w, d.value = w * u := ⟨d.value / u, by field_simp⟩
  unfold readsBack at h
  rw [show (if x.narrowBelow = true then 1 else 2) = x.gap from rfl] at h
  simp only [compareScaled_eq, hquarter, hcast, Bool.and_eq_true, Bool.or_eq_true, beq_iff_eq,
    compare_gt_iff_gt, compare_lt_iff_lt, compare_eq_iff_eq] at h
  have hunits (a : ℚ) : a * (u / 4) = a / 4 * u := by ring
  rw [show (d.digits : ℚ) * 10 ^ d.exp = w * u from hw] at h
  simp only [hunits, mul_lt_mul_iff_left₀ hunit, mul_left_inj' hunit.ne'] at h
  push_cast at h
  obtain ⟨hlower, hupper⟩ := h
  have hvalue : d.value / 2 ^ x.q = w := by
    rw [← hu, hw]
    field_simp
  constructor <;> rw [hvalue]
  · rcases hlower with h | ⟨-, h⟩ <;> linarith
  · rcases hupper with h | ⟨-, h⟩ <;> linarith
  · intro heq
    rcases hlower with h | ⟨heven, -⟩
    · linarith
    · exact heven
  · intro heq
    rcases hupper with h | ⟨heven, -⟩
    · linarith
    · exact heven

/-- Every number is nearest to itself. -/
theorem attracts_value (hm : 0 < x.m) : x.Attracts x.value := by
  have hvalue : x.value / 2 ^ x.q = x.m := by
    rw [value]
    field_simp
  have hgap : (1 : ℚ) ≤ x.gap := by
    unfold gap
    split <;> norm_num
  constructor <;> rw [hvalue]
  · linarith
  · linarith
  · intro h
    linarith
  · intro h
    linarith

theorem readsBack_of_onGrid {tie : Tie} {e : Int} {d : Dec} (h : x.onGrid tie e = some d) :
    x.readsBack d = true ∧ d.exp = e := by
  unfold onGrid at h
  dsimp only at h
  split at h
  · next hlo hhi =>
    split at h <;> cases h
    · exact ⟨hlo, rfl⟩
    · exact ⟨hhi, rfl⟩
    · exact ⟨hhi, rfl⟩
    · split
      · exact ⟨hlo, rfl⟩
      · exact ⟨hhi, rfl⟩
  · next hlo _ =>
    cases h
    exact ⟨hlo, rfl⟩
  · next _ hhi =>
    cases h
    exact ⟨hhi, rfl⟩
  · cases h

theorem Canonical.scale_ge (hx : x.Canonical) : -324 ≤ x.scale := by
  have hlow := hx.low
  unfold scale
  dsimp only
  split_ifs <;> omega

/-- A magnitude written out in full. -/
theorem value_exact (x : Binary) :
    (Dec.mk ((x.m * Nat.pow 5 (-x.q).toNat) <<< x.q.toNat) (min x.q 0)).value = x.value := by
  have hmin : min x.q 0 = -((-x.q).toNat : Int) := by omega
  have hten : (10 : ℚ) ^ (-x.q).toNat = 2 ^ (-x.q).toNat * 5 ^ (-x.q).toNat := by
    rw [← mul_pow]
    norm_num
  rw [Dec.value, value, zpow_eq_div_toNat (by norm_num) x.q, hmin, zpow_neg, zpow_natCast, hten,
    Nat.shiftLeft_eq, Nat.pow_eq]
  push_cast
  field_simp

/-- The digits taken for a stored magnitude. -/
theorem Canonical.shortest_spec (hx : x.Canonical) (tie : Tie) :
    x.Attracts (x.shortest tie).value ∧ -1074 ≤ (x.shortest tie).exp := by
  unfold shortest
  dsimp only
  cases hfound : (List.range 17).findSome? fun (n : Nat) => x.onGrid tie (x.scale - (n + 1)) with
  | none =>
    have hlow := hx.low
    rw [Option.getD_none]
    refine ⟨?_, by dsimp only; omega⟩
    rw [value_exact]
    exact attracts_value hx.pos
  | some d =>
    obtain ⟨n, hn, hd⟩ := List.exists_of_findSome?_eq_some hfound
    obtain ⟨hback, hexp⟩ := readsBack_of_onGrid hd
    have hscale := hx.scale_ge
    have hfew := List.mem_range.mp hn
    rw [Option.getD_some]
    exact ⟨attracts_of_readsBack hx.pos hback, by omega⟩

end Binary

end Switchboard.Decimal
