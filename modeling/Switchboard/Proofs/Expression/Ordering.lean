import Switchboard.Proofs.Decimal.Comparison
import Switchboard.Proofs.Expression.Finite

/-! The order of sorted arrays is a total preorder: every value has a place in a linear order, and
values are compared by their places. -/
namespace Switchboard

theorem Number.isOrdered_toFloat {n : Number} (h : n.IsFinite) : Decimal.IsOrdered n.toFloat := by
  cases n with
  | int n => exact Decimal.isOrdered_ofInt n
  | float x => exact Decimal.isOrdered_of_isFinite h

namespace Expression

theorem compareFloat_eq {x y : Float} (hx : Decimal.IsOrdered x) (hy : Decimal.IsOrdered y) :
    compareFloat x y = some (compare (Decimal.position x) (Decimal.position y)) := by
  unfold compareFloat
  simp only [Decimal.lt_iff_position_lt hx hy, Decimal.lt_iff_position_lt hy hx,
    Decimal.beq_iff_position_eq hx hy]
  rcases lt_trichotomy (Decimal.position x) (Decimal.position y) with h | h | h
  · rw [if_pos h, compare_lt_iff_lt.mpr h]
  · rw [if_neg h.not_lt, if_pos h, compare_eq_iff_eq.mpr h]
  · rw [if_neg h.not_gt, if_neg h.ne', if_pos h, compare_gt_iff_gt.mpr h]

theorem compareText_eq (s t : String) : compareText s t = compare s t := by
  unfold compareText
  rcases lt_trichotomy s t with h | h | h
  · rw [if_pos h, compare_lt_iff_lt.mpr h]
  · rw [if_neg h.not_lt, if_pos h, compare_eq_iff_eq.mpr h]
  · rw [if_neg h.not_gt, if_neg h.ne', compare_gt_iff_gt.mpr h]

/-- The place among the values of a rank. -/
def placeInRank : Option Json → (ℤ ×ₗ ℤ ×ₗ ℤ) ×ₗ String
  | some (.num n) => toLex (Decimal.position n.toFloat, "")
  | some (.str s) => toLex (toLex (0, toLex (0, 0)), s)
  | some (.bool b) => toLex (toLex (b.toNat, toLex (0, 0)), "")
  | _ => toLex (toLex (0, toLex (0, 0)), "")

def place (v : Option Json) : ℕ ×ₗ (ℤ ×ₗ ℤ ×ₗ ℤ) ×ₗ String := toLex (rank v, placeInRank v)

/-- Values of different ranks compare as their ranks do. -/
theorem order_of_rank_ne {a b : Option Json} (h : rank a ≠ rank b) :
    order a b = compare (rank a) (rank b) := by
  unfold order
  split
  · exact absurd rfl h
  · exact absurd rfl h
  · exact absurd rfl h
  · rfl

theorem order_eq_compare_placeInRank {a b : Option Json} (ha : AllFinite a) (hb : AllFinite b)
    (h : rank a = rank b) : order a b = compare (placeInRank a) (placeInRank b) := by
  unfold order
  split
  · next x y => cases x <;> cases y <;> rfl
  · next m n =>
    rw [relation, compareFloat_eq (Number.isOrdered_toFloat (ha _ rfl).number)
      (Number.isOrdered_toFloat (hb _ rfl).number), Option.getD_some, placeInRank, placeInRank,
      Decimal.compare_toLex, compare_eq_iff_eq.mpr (rfl : "" = ""), Ordering.then_eq]
  · next s t =>
    rw [relation, compareText_eq, Option.getD_some, placeInRank, placeInRank,
      Decimal.compare_toLex, compare_eq_iff_eq.mpr rfl, Ordering.eq_then]
  · next hbool hnum hstr =>
    have hplace : placeInRank a = placeInRank b := by
      rcases a with _ | (_ | x | m | s | _ | _) <;> rcases b with _ | (_ | y | n | t | _ | _) <;>
        simp_all [rank, placeInRank]
    rw [compare_eq_iff_eq.mpr h, compare_eq_iff_eq.mpr hplace]

theorem order_eq_compare_place {a b : Option Json} (ha : AllFinite a) (hb : AllFinite b) :
    order a b = compare (place a) (place b) := by
  rw [place, place, Decimal.compare_toLex]
  by_cases h : rank a = rank b
  · rw [order_eq_compare_placeInRank ha hb h, compare_eq_iff_eq.mpr h, Ordering.eq_then]
  · rw [order_of_rank_ne h]
    rcases lt_or_gt_of_ne h with h | h
    · rw [compare_lt_iff_lt.mpr h]
      rfl
    · rw [compare_gt_iff_gt.mpr h]
      rfl

theorem order_self {a : Option Json} (ha : AllFinite a) : order a a = .eq := by
  rw [order_eq_compare_place ha ha]
  exact compare_eq_iff_eq.mpr rfl

section
variable {a b : Option Json} (ha : AllFinite a) (hb : AllFinite b)
include ha hb

theorem order_ne_gt_iff : order a b ≠ .gt ↔ place a ≤ place b := by
  rw [order_eq_compare_place ha hb]
  exact compare_le_iff_le

theorem order_eq_eq_iff : order a b = .eq ↔ place a = place b := by
  rw [order_eq_compare_place ha hb]
  exact compare_eq_iff_eq

theorem order_total : order a b ≠ .gt ∨ order b a ≠ .gt := by
  rw [order_ne_gt_iff ha hb, order_ne_gt_iff hb ha]
  exact le_total _ _

theorem order_trans {c : Option Json} (hc : AllFinite c) (hab : order a b ≠ .gt)
    (hbc : order b c ≠ .gt) : order a c ≠ .gt := by
  rw [order_ne_gt_iff ha hb] at hab
  rw [order_ne_gt_iff hb hc] at hbc
  exact (order_ne_gt_iff ha hc).mpr (hab.trans hbc)

end

end Expression
end Switchboard
