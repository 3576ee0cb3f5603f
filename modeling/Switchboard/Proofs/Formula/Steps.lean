import Switchboard.Proofs.Except
import Switchboard.Proofs.Formula.Grammar

/-! The steps of the evaluator as equations between plain results. The evaluator hands on, with the
tokens that are left, the proof that they are fewer; `plain` drops that proof. -/
namespace Switchboard.Formula

/-- A value and the tokens that are left, without the proof about them. -/
def plain {p : List Token → Prop} (x : Float × { r : List Token // p r }) : Float × List Token :=
  (x.1, x.2.1)

variable {d : Nat} {x : Float}

theorem plain_sum (ts : List Token) :
    (sum d ts).map plain = (do
      let (x, r) ← (product d ts).map plain
      (moreTerms d x r).map plain) := by
  rw [sum]
  rcases product d ts with _ | ⟨x, r, _⟩
  · rfl
  · rcases h : moreTerms d x r with _ | ⟨_, _, _⟩ <;> simp [plain, h]

theorem plain_moreTerms_operator (o : Additive) (ts : List Token) :
    (moreTerms d x (o.mark.token :: ts)).map plain = (do
      let (y, r) ← (product d ts).map plain
      (moreTerms d (o.apply x y) r).map plain) := by
  cases o <;> simp only [Additive.mark, Mark.token, Additive.apply, moreTerms]
  · rcases product d ts with _ | ⟨y, r, _⟩
    · rfl
    · rcases h : moreTerms d (x + y) r with _ | ⟨_, _, _⟩ <;> simp [plain, h]
  · rcases product d ts with _ | ⟨y, r, _⟩
    · rfl
    · rcases h : moreTerms d (x - y) r with _ | ⟨_, _, _⟩ <;> simp [plain, h]

theorem plain_moreTerms_of_ne {ts : List Token}
    (h : ∀ (o : Additive) r, ts ≠ o.mark.token :: r) :
    (moreTerms d x ts).map plain = .ok (x, ts) := by
  rw [moreTerms]
  · rfl
  · exact h .plus
  · exact h .minus

theorem plain_product (ts : List Token) :
    (product d ts).map plain = (do
      let (x, r) ← (factor d ts).map plain
      (moreFactors d x r).map plain) := by
  rw [product]
  rcases factor d ts with _ | ⟨x, r, _⟩
  · rfl
  · rcases h : moreFactors d x r with _ | ⟨_, _, _⟩ <;> simp [plain, h]

theorem plain_moreFactors_operator (o : Multiplicative) (ts : List Token) :
    (moreFactors d x (o.mark.token :: ts)).map plain = (do
      let (y, r) ← (factor d ts).map plain
      if o.divides && y == 0 then .error .divisionByZero
      else (moreFactors d (o.apply x y) r).map plain) := by
  cases o <;> simp only [Multiplicative.mark, Mark.token, Multiplicative.apply,
    Multiplicative.divides, Bool.true_and, Bool.false_and, Bool.false_eq_true, if_false,
    moreFactors]
  · rcases factor d ts with _ | ⟨y, r, _⟩
    · rfl
    · rcases h : moreFactors d (x * y) r with _ | ⟨_, _, _⟩ <;> simp [plain, h]
  · rcases factor d ts with _ | ⟨y, r, _⟩
    · rfl
    · rcases h : moreFactors d (x / y) r with _ | ⟨_, _, _⟩ <;>
        by_cases hy : (y == 0) = true <;> simp [plain, h, hy]
  · rcases factor d ts with _ | ⟨y, r, _⟩
    · rfl
    · rcases h : moreFactors d (Decimal.remainder x y) r with _ | ⟨_, _, _⟩ <;>
        by_cases hy : (y == 0) = true <;> simp [plain, h, hy]

theorem plain_moreFactors_of_ne {ts : List Token}
    (h : ∀ (o : Multiplicative) r, ts ≠ o.mark.token :: r) :
    (moreFactors d x ts).map plain = .ok (x, ts) := by
  rw [moreFactors]
  · rfl
  · exact h .times
  · exact h .divide
  · exact h .percent

theorem factor_of_deep (h : maxDepth ≤ d) (ts : List Token) : factor d ts = .error .tooDeep := by
  rw [factor.eq_def, if_pos h]

section Factor
variable (h : d < maxDepth)
include h

theorem factor_nil : factor d [] = .error .unexpectedEnd := by
  rw [factor, if_neg (Nat.not_le.mpr h)]

theorem plain_factor_number (x : Float) (ts : List Token) :
    (factor d (.number x :: ts)).map plain = .ok (x, ts) := by
  rw [factor, if_neg (Nat.not_le.mpr h)]
  rfl

theorem plain_factor_minus (ts : List Token) :
    (factor d (.minus :: ts)).map plain =
      ((factor (d + 1) ts).map plain).map fun (x, r) => (-x, r) := by
  rw [factor, if_neg (Nat.not_le.mpr h)]
  rcases factor (d + 1) ts with _ | ⟨_, _, _⟩ <;> rfl

theorem plain_factor_plus (ts : List Token) :
    (factor d (.plus :: ts)).map plain = (factor (d + 1) ts).map plain := by
  rw [factor, if_neg (Nat.not_le.mpr h)]
  rcases factor (d + 1) ts with _ | ⟨_, _, _⟩ <;> rfl

theorem plain_factor_group (ts : List Token) :
    (factor d (.openParen :: ts)).map plain = (do
      let (x, r) ← (sum (d + 1) ts).map plain
      match r with
      | .closeParen :: q => .ok (x, q)
      | _ => .error .unbalanced) := by
  rw [factor, if_neg (Nat.not_le.mpr h)]
  rcases sum (d + 1) ts with _ | ⟨x, r, _⟩
  · rfl
  · rcases r with _ | ⟨t, q⟩
    · rfl
    · cases t <;> rfl

/-- Any other token cannot begin a factor. -/
theorem factor_of_ne {t : Token} (hnumber : ∀ x, t ≠ .number x) (hminus : t ≠ .minus)
    (hplus : t ≠ .plus) (hopen : t ≠ .openParen) (ts : List Token) :
    factor d (t :: ts) = .error (.strange t.label) := by
  rw [factor, if_neg (Nat.not_le.mpr h)]
  · exact hnumber
  · exact hminus
  · exact hplus
  · exact hopen

end Factor

end Switchboard.Formula
