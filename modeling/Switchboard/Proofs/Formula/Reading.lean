import Switchboard.Proofs.Formula.Steps

/-! The evaluator reads exactly what the grammar derives. The tokens of a tree are read with the
value of the tree, unless it nests too deeply or divides by zero; what is read are the tokens of a
tree, and of one tree only. -/
namespace Switchboard.Formula

/-- How tightly a token holds on to what stands before it. -/
def Token.grip : Token → Nat
  | plus => 1
  | minus => 1
  | times => 2
  | divide => 2
  | percent => 2
  | _ => 0

/-- Nothing that comes next holds on more tightly than `n`. -/
def Ends (n : Nat) (rest : List Token) : Prop := ∀ t ∈ rest.head?, t.grip ≤ n

theorem ends_nil (n : Nat) : Ends n [] := nofun

theorem ends_cons {n : Nat} {t : Token} (h : t.grip ≤ n) (r : List Token) : Ends n (t :: r) := by
  rintro _ ⟨⟩
  exact h

theorem Ends.mono {m n : Nat} (h : m ≤ n) {rest : List Token} (hr : Ends m rest) : Ends n rest :=
  fun t ht => Nat.le_trans (hr t ht) h

theorem Ends.ne {n : Nat} {rest : List Token} (hr : Ends n rest) {t : Token} (ht : n < t.grip)
    (r : List Token) : rest ≠ t :: r := by
  rintro rfl
  exact absurd (hr t rfl) (Nat.not_le.mpr ht)

theorem Ends.ne_additive {rest : List Token} (hr : Ends 0 rest) (o : Additive) (r : List Token) :
    rest ≠ o.mark.token :: r := hr.ne (by cases o <;> decide) r

theorem Ends.ne_multiplicative {rest : List Token} (hr : Ends 1 rest) (o : Multiplicative)
    (r : List Token) : rest ≠ o.mark.token :: r := hr.ne (by cases o <;> decide) r

namespace Derivation
variable (rest : List Token)

theorem tokens_sum_append (first : Derivation Float .product) (more : Derivation Float .terms) :
    (sum first more).tokens ++ rest = first.tokens ++ (more.tokens ++ rest) :=
  List.append_assoc _ _ _

theorem tokens_term_append (o : Additive) (t : Derivation Float .product)
    (more : Derivation Float .terms) :
    (term o t more).tokens ++ rest = o.mark.token :: (t.tokens ++ (more.tokens ++ rest)) :=
  congrArg (o.mark.token :: ·) (List.append_assoc _ _ _)

theorem tokens_product_append (first : Derivation Float .factor)
    (more : Derivation Float .factors) :
    (product first more).tokens ++ rest = first.tokens ++ (more.tokens ++ rest) :=
  List.append_assoc _ _ _

theorem tokens_times_append (o : Multiplicative) (t : Derivation Float .factor)
    (more : Derivation Float .factors) :
    (times o t more).tokens ++ rest = o.mark.token :: (t.tokens ++ (more.tokens ++ rest)) :=
  congrArg (o.mark.token :: ·) (List.append_assoc _ _ _)

theorem tokens_group_append (t : Derivation Float .sum) :
    (group t).tokens ++ rest = .openParen :: (t.tokens ++ .closeParen :: rest) :=
  congrArg (Token.openParen :: ·) (List.append_assoc _ _ _)

theorem ends_terms (t : Derivation Float .terms) {rest : List Token} (hr : Ends 0 rest) :
    Ends 1 (t.tokens ++ rest) := by
  cases t with
  | noTerm => exact hr.mono (Nat.zero_le 1)
  | term o t more => exact ends_cons (by cases o <;> decide) _

end Derivation

/-- A result is the value `v` with `rest` left, unless `m` is past the limit or `z` says that
something was divided by zero. -/
inductive Settles (m : Nat) (z : Bool) (v : Float) (rest : List Token) :
    Except Error (Float × List Token) → Prop where
  | value (hm : m ≤ maxDepth) (hz : z = false) : Settles m z v rest (.ok (v, rest))
  | tooDeep (hm : maxDepth < m) : Settles m z v rest (.error .tooDeep)
  | divisionByZero (hz : z = true) : Settles m z v rest (.error .divisionByZero)

namespace Settles
variable {m n : Nat} {z w : Bool} {u v : Float} {rest left : List Token}
  {x : Except Error (Float × List Token)}

/-- Of two steps each may go past the limit or divide by zero. -/
theorem bind {f : Float × List Token → Except Error (Float × List Token)}
    (hx : Settles m z u left x) (hf : m ≤ maxDepth → Settles n w v rest (f (u, left))) :
    Settles (max m n) (z || w) v rest (x >>= f) := by
  cases hx with
  | value hm hz =>
    subst hz
    rw [Except.ok_bind, Bool.false_or]
    generalize hr : f (u, left) = r at hf
    cases hf hm with
    | value hn hw => exact .value (Nat.max_le.mpr ⟨hm, hn⟩) hw
    | tooDeep hn => exact .tooDeep (Nat.lt_of_lt_of_le hn (Nat.le_max_right m n))
    | divisionByZero hw => exact .divisionByZero hw
  | tooDeep hm => exact .tooDeep (Nat.lt_of_lt_of_le hm (Nat.le_max_left m n))
  | divisionByZero hz => exact .divisionByZero (by rw [hz, Bool.true_or])

theorem map (f : Float → Float) (hx : Settles m z u left x) :
    Settles m z (f u) left (x.map fun (y, r) => (f y, r)) := by
  cases hx with
  | value hm hz => exact .value hm hz
  | tooDeep hm => exact .tooDeep hm
  | divisionByZero hz => exact .divisionByZero hz

end Settles

namespace Derivation

/-- The evaluator reads a tree, whatever comes after it that does not hold on to it. -/
def Reads : {k : Nonterminal} → Derivation Float k → Prop
  | .sum, t => ∀ {d rest}, Ends 0 rest →
    Settles (d + t.depth) (t.dividesByZero id) (t.value id) rest
      ((Formula.sum d (t.tokens ++ rest)).map plain)
  | .terms, t => ∀ {d rest} x, d ≤ maxDepth → Ends 0 rest →
    Settles (d + t.depth) (t.dividesByZero id) (t.value id x) rest
      ((moreTerms d x (t.tokens ++ rest)).map plain)
  | .product, t => ∀ {d rest}, Ends 1 rest →
    Settles (d + t.depth) (t.dividesByZero id) (t.value id) rest
      ((Formula.product d (t.tokens ++ rest)).map plain)
  | .factors, t => ∀ {d rest} x, d ≤ maxDepth → Ends 1 rest →
    Settles (d + t.depth) (t.dividesByZero id) (t.value id x) rest
      ((moreFactors d x (t.tokens ++ rest)).map plain)
  | .factor, t => ∀ {d rest},
    Settles (d + t.depth) (t.dividesByZero id) (t.value id) rest
      ((Formula.factor d (t.tokens ++ rest)).map plain)

theorem settles_factor {d m : Nat} (hm : d < m) {z : Bool} {v : Float} {ts rest : List Token}
    (h : d < maxDepth → Settles m z v rest ((Formula.factor d ts).map plain)) :
    Settles m z v rest ((Formula.factor d ts).map plain) := by
  by_cases hd : d < maxDepth
  · exact h hd
  · rw [factor_of_deep (Nat.not_lt.mp hd)]
    exact .tooDeep (by omega)

theorem reads {k : Nonterminal} (t : Derivation Float k) : t.Reads := by
  induction t with
  | sum first more ihf ihm =>
    intro d rest hr
    rw [tokens_sum_append, plain_sum, depth, ← Nat.add_max_add_left]
    exact (ihf (ends_terms more hr)).bind fun hm => ihm _ (Nat.le_of_add_right_le hm) hr
  | noTerm =>
    intro d rest x hd hr
    exact plain_moreTerms_of_ne hr.ne_additive ▸ .value hd rfl
  | term o t more iht ihm =>
    intro d rest x hd hr
    rw [tokens_term_append, plain_moreTerms_operator, depth, ← Nat.add_max_add_left]
    exact (iht (ends_terms more hr)).bind fun _ => ihm _ hd hr
  | product first more ihf ihm =>
    intro d rest hr
    rw [tokens_product_append, plain_product, depth, ← Nat.add_max_add_left]
    exact ihf.bind fun hm => ihm _ (Nat.le_of_add_right_le hm) hr
  | noFactor =>
    intro d rest x hd hr
    exact plain_moreFactors_of_ne hr.ne_multiplicative ▸ .value hd rfl
  | times o t more iht ihm =>
    intro d rest x hd hr
    rw [tokens_times_append, plain_moreFactors_operator, depth, ← Nat.add_max_add_left,
      dividesByZero, Bool.or_assoc]
    refine iht.bind fun hm => ?_
    -- the operand is looked at before what follows it is read
    dsimp only
    by_cases hzero : (o.divides && t.value id == 0) = true
    · rw [if_pos hzero]
      exact .divisionByZero (by rw [hzero, Bool.true_or])
    · rw [if_neg hzero, Bool.eq_false_iff.mpr hzero, Bool.false_or]
      exact ihm _ hd hr
  | leaf a =>
    intro d rest
    refine settles_factor (Nat.lt_succ_self d) fun hd => ?_
    have hnumber : (Formula.factor d ((leaf a).tokens ++ rest)).map plain = .ok (a, rest) :=
      plain_factor_number hd a rest
    rw [hnumber]
    exact .value hd rfl
  | negative t ih =>
    intro d rest
    have hdepth : d + (negative t).depth = d + 1 + t.depth := by
      rw [depth, Nat.add_right_comm, Nat.add_assoc]
    rw [hdepth]
    refine settles_factor (by omega) fun hd => ?_
    have hminus : (Formula.factor d ((negative t).tokens ++ rest)).map plain =
        ((Formula.factor (d + 1) (t.tokens ++ rest)).map plain).map fun (x, r) => (-x, r) :=
      plain_factor_minus hd _
    rw [hminus]
    exact ih.map (-·)
  | positive t ih =>
    intro d rest
    have hdepth : d + (positive t).depth = d + 1 + t.depth := by
      rw [depth, Nat.add_right_comm, Nat.add_assoc]
    rw [hdepth]
    refine settles_factor (by omega) fun hd => ?_
    have hplus : (Formula.factor d ((positive t).tokens ++ rest)).map plain =
        (Formula.factor (d + 1) (t.tokens ++ rest)).map plain := plain_factor_plus hd _
    rw [hplus]
    exact ih
  | group t ih =>
    intro d rest
    have hdepth : d + (group t).depth = max (d + 1 + t.depth) 0 := by
      rw [depth, Nat.max_zero, Nat.add_right_comm, Nat.add_assoc]
    rw [hdepth, dividesByZero, ← Bool.or_false (dividesByZero id t), tokens_group_append]
    refine settles_factor (by omega) fun hd => ?_
    rw [plain_factor_group hd]
    exact (ih (ends_cons (Nat.le_refl 0) rest)).bind fun _ => .value (Nat.zero_le _) rfl

/-- What follows the tokens of a tree so that they end where the tree does. -/
def Ended : Nonterminal → List Token → Prop
  | .sum => Ends 0
  | .terms => Ends 0
  | .product => Ends 1
  | .factors => Ends 1
  | .factor => fun _ => True

theorem Additive.mark_token_inj {o o' : Additive} (h : o.mark.token = o'.mark.token) : o = o' := by
  cases o <;> cases o' <;> first | rfl | cases h

theorem Multiplicative.mark_token_inj {o o' : Multiplicative}
    (h : o.mark.token = o'.mark.token) : o = o' := by
  cases o <;> cases o' <;> first | rfl | cases h

theorem tokens_append_inj {k : Nonterminal} (t u : Derivation Float k) {a b : List Token}
    (ha : Ended k a) (hb : Ended k b) (h : t.tokens ++ a = u.tokens ++ b) : t = u ∧ a = b := by
  induction t generalizing a b with
  | sum first more ihf ihm =>
    cases u with
    | sum first' more' =>
      rw [tokens_sum_append, tokens_sum_append] at h
      obtain ⟨rfl, hmore⟩ := ihf first' (ends_terms more ha) (ends_terms more' hb) h
      obtain ⟨rfl, hrest⟩ := ihm more' ha hb hmore
      exact ⟨rfl, hrest⟩
  | noTerm =>
    cases u with
    | noTerm => exact ⟨rfl, h⟩
    | term o u more => exact absurd h (Ends.ne_additive ha o _)
  | term o t more iht ihm =>
    cases u with
    | noTerm => exact absurd h.symm (Ends.ne_additive hb o _)
    | term o' u more' =>
      rw [tokens_term_append, tokens_term_append] at h
      obtain ⟨ho, hterm⟩ := List.cons.inj h
      obtain rfl := Additive.mark_token_inj ho
      obtain ⟨rfl, hmore⟩ := iht u (ends_terms more ha) (ends_terms more' hb) hterm
      obtain ⟨rfl, hrest⟩ := ihm more' ha hb hmore
      exact ⟨rfl, hrest⟩
  | product first more ihf ihm =>
    cases u with
    | product first' more' =>
      rw [tokens_product_append, tokens_product_append] at h
      obtain ⟨rfl, hmore⟩ := ihf first' trivial trivial h
      obtain ⟨rfl, hrest⟩ := ihm more' ha hb hmore
      exact ⟨rfl, hrest⟩
  | noFactor =>
    cases u with
    | noFactor => exact ⟨rfl, h⟩
    | times o u more => exact absurd h (Ends.ne_multiplicative ha o _)
  | times o t more iht ihm =>
    cases u with
    | noFactor => exact absurd h.symm (Ends.ne_multiplicative hb o _)
    | times o' u more' =>
      rw [tokens_times_append, tokens_times_append] at h
      obtain ⟨ho, hfactor⟩ := List.cons.inj h
      obtain rfl := Multiplicative.mark_token_inj ho
      obtain ⟨rfl, hmore⟩ := iht u trivial trivial hfactor
      obtain ⟨rfl, hrest⟩ := ihm more' ha hb hmore
      exact ⟨rfl, hrest⟩
  | leaf x =>
    cases u with
    | leaf y =>
      obtain ⟨hx, hrest⟩ := List.cons.inj h
      cases hx
      exact ⟨rfl, hrest⟩
    | _ => cases (List.cons.inj h).1
  | negative t ih =>
    cases u with
    | negative u =>
      obtain ⟨rfl, hrest⟩ := ih u trivial trivial (List.cons.inj h).2
      exact ⟨rfl, hrest⟩
    | _ => cases (List.cons.inj h).1
  | positive t ih =>
    cases u with
    | positive u =>
      obtain ⟨rfl, hrest⟩ := ih u trivial trivial (List.cons.inj h).2
      exact ⟨rfl, hrest⟩
    | _ => cases (List.cons.inj h).1
  | group t ih =>
    cases u with
    | group u =>
      rw [tokens_group_append, tokens_group_append] at h
      have hclose (r : List Token) : Ends 0 (.closeParen :: r) := ends_cons (Nat.le_refl 0) r
      obtain ⟨rfl, hrest⟩ := ih u (hclose a) (hclose b) (List.cons.inj h).2
      exact ⟨rfl, (List.cons.inj hrest).2⟩
    | _ => cases (List.cons.inj h).1

theorem tokens_injective : Function.Injective (tokens : Derivation Float .sum → List Token) := by
  intro t u h
  exact (tokens_append_inj t u (ends_nil 0) (ends_nil 0) (congrArg (· ++ []) h)).1

end Derivation

/-- What has been read of `ts` are the tokens of a tree. What is refused is refused for the order of
the tokens or for a value, never for a character. -/
def Sound (k : Nonterminal) (ts : List Token) : Except Error (Float × List Token) → Prop
  | .ok (_, rest) => ∃ t : Derivation Float k, ts = t.tokens ++ rest
  | .error e => ∀ c : Char, e ≠ .strange c.toString

namespace Sound
variable {k l : Nonterminal} {ts us : List Token} {x : Except Error (Float × List Token)}

theorem bind {f : Float × List Token → Except Error (Float × List Token)} (hx : Sound k ts x)
    (hf : ∀ v r (t : Derivation Float k), ts = t.tokens ++ r → Sound l us (f (v, r))) :
    Sound l us (x >>= f) := by
  rcases x with e | ⟨v, r⟩
  · exact hx
  · obtain ⟨t, ht⟩ := hx
    exact hf v r t ht

/-- A tree for the later tokens is completed to one for all of them. -/
theorem imp (hx : Sound k ts x)
    (h : ∀ rest (t : Derivation Float k), ts = t.tokens ++ rest →
      ∃ u : Derivation Float l, us = u.tokens ++ rest) : Sound l us x := by
  rcases x with e | ⟨v, r⟩
  · exact hx
  · obtain ⟨t, ht⟩ := hx
    exact h r t ht

theorem map {f : Float → Float} (hx : Sound k ts x) :
    Sound k ts (x.map fun (y, r) => (f y, r)) := by
  rcases x with e | ⟨v, r⟩ <;> exact hx

end Sound

/-- The name of a token is longer than a character. -/
theorem Token.label_ne (t : Token) (c : Char) : t.label ≠ c.toString := by
  intro h
  have hlen : t.label.length = 1 := (congrArg String.length h).trans String.length_singleton
  revert hlen
  cases t <;> simp only [label] <;> decide

theorem Additive.exists_or (ts : List Token) :
    (∃ (o : Additive) (r : List Token), ts = o.mark.token :: r) ∨
      ∀ (o : Additive) (r : List Token), ts ≠ o.mark.token :: r := by
  by_cases h : ∃ (o : Additive) (r : List Token), ts = o.mark.token :: r
  · exact .inl h
  · exact .inr fun o r hts => h ⟨o, r, hts⟩

theorem Multiplicative.exists_or (ts : List Token) :
    (∃ (o : Multiplicative) (r : List Token), ts = o.mark.token :: r) ∨
      ∀ (o : Multiplicative) (r : List Token), ts ≠ o.mark.token :: r := by
  by_cases h : ∃ (o : Multiplicative) (r : List Token), ts = o.mark.token :: r
  · exact .inl h
  · exact .inr fun o r hts => h ⟨o, r, hts⟩

theorem length_le_of_eq_append {ts us r : List Token} (h : ts = us ++ r) :
    r.length ≤ ts.length := by
  rw [h, List.length_append]
  exact Nat.le_add_left _ _

open Formula.Derivation in
mutual

theorem sound_sum (d : Nat) (ts : List Token) : Sound .sum ts ((sum d ts).map plain) := by
  rw [plain_sum]
  refine (sound_product d ts).bind fun x r first hfirst => ?_
  have hlen := length_le_of_eq_append hfirst
  refine (sound_moreTerms d x r).imp fun rest more hmore => ⟨.sum first more, ?_⟩
  rw [tokens_sum_append, hfirst, hmore]
termination_by 4 * ts.length + 2

theorem sound_moreTerms (d : Nat) (x : Float) (ts : List Token) :
    Sound .terms ts ((moreTerms d x ts).map plain) := by
  rcases Additive.exists_or ts with ⟨o, r, hts⟩ | hts
  · have hlen : ts.length = r.length + 1 := by rw [hts, List.length_cons]
    rw [hts, plain_moreTerms_operator]
    refine (sound_product d r).bind fun y q t ht => ?_
    have hq := length_le_of_eq_append ht
    refine (sound_moreTerms d (o.apply x y) q).imp fun rest more hmore => ⟨.term o t more, ?_⟩
    rw [tokens_term_append, ht, hmore]
  · rw [plain_moreTerms_of_ne hts]
    exact ⟨.noTerm, rfl⟩
termination_by 4 * ts.length

theorem sound_product (d : Nat) (ts : List Token) :
    Sound .product ts ((product d ts).map plain) := by
  rw [plain_product]
  refine (sound_factor d ts).bind fun x r first hfirst => ?_
  have hlen := length_le_of_eq_append hfirst
  refine (sound_moreFactors d x r).imp fun rest more hmore => ⟨.product first more, ?_⟩
  rw [tokens_product_append, hfirst, hmore]
termination_by 4 * ts.length + 1

theorem sound_moreFactors (d : Nat) (x : Float) (ts : List Token) :
    Sound .factors ts ((moreFactors d x ts).map plain) := by
  rcases Multiplicative.exists_or ts with ⟨o, r, hts⟩ | hts
  · have hlen : ts.length = r.length + 1 := by rw [hts, List.length_cons]
    rw [hts, plain_moreFactors_operator]
    refine (sound_factor d r).bind fun y q t ht => ?_
    have hq := length_le_of_eq_append ht
    dsimp only
    split
    · nofun
    · refine (sound_moreFactors d (o.apply x y) q).imp fun rest more hmore => ⟨.times o t more, ?_⟩
      rw [tokens_times_append, ht, hmore]
  · rw [plain_moreFactors_of_ne hts]
    exact ⟨.noFactor, rfl⟩
termination_by 4 * ts.length

theorem sound_factor (d : Nat) (ts : List Token) : Sound .factor ts ((factor d ts).map plain) := by
  by_cases hd : d < maxDepth
  · rcases ts with _ | ⟨t, r⟩
    · rw [factor_nil hd]
      nofun
    · cases t with
      | number x =>
        rw [plain_factor_number hd]
        exact ⟨.leaf x, rfl⟩
      | minus =>
        rw [plain_factor_minus hd]
        exact ((sound_factor (d + 1) r).imp fun rest t ht => ⟨.negative t, by rw [ht]; rfl⟩).map
      | plus =>
        rw [plain_factor_plus hd]
        exact (sound_factor (d + 1) r).imp fun rest t ht => ⟨.positive t, by rw [ht]; rfl⟩
      | openParen =>
        rw [plain_factor_group hd]
        refine (sound_sum (d + 1) r).bind fun x q t ht => ?_
        dsimp only
        split
        · exact ⟨.group t, by rw [tokens_group_append, ht]⟩
        · nofun
      | _ =>
        rw [factor_of_ne hd (by simp) (by simp) (by simp) (by simp)]
        exact fun c h => Token.label_ne _ c (Error.strange.inj h)
  · rw [factor_of_deep (Nat.not_lt.mp hd)]
    nofun
termination_by 4 * ts.length

end

/-- A whole text must be used up, and its value must be finite. -/
def conclude (s : String) : Float × List Token → Except Error Float
  | (x, rest) =>
    if !rest.isEmpty then .error (.strange s)
    else if Decimal.isFinite x then .ok x
    else .error .notFinite

theorem evaluate_of_tokens {s : String} {ts : List Token} (h : tokens [] s.toList = .ok ts) :
    evaluate s = (sum 0 ts).map plain >>= conclude s := by
  unfold evaluate
  simp only [h]
  rcases sum 0 ts with _ | ⟨x, rest, _⟩ <;> rfl

theorem conclude_eq_ok {s : String} {x v : Float} {rest : List Token} :
    conclude s (x, rest) = .ok v ↔ rest = [] ∧ x = v ∧ Decimal.isFinite v = true := by
  unfold conclude
  rcases rest with _ | ⟨t, r⟩
  · by_cases hx : Decimal.isFinite x = true
    · simp only [List.isEmpty_nil, Bool.not_true, Bool.false_eq_true, if_false, hx, if_true,
        Except.ok.injEq, true_and]
      exact ⟨fun h => ⟨h, h ▸ hx⟩, And.left⟩
    · simp only [List.isEmpty_nil, Bool.not_true, Bool.false_eq_true, if_false, hx, reduceCtorEq,
        true_and, false_iff]
      rintro ⟨rfl, hv⟩
      exact hx hv
  · simp

/-- The tokens of a tree, read to their end. -/
theorem settles_tokens (t : Derivation Float .sum) :
    Settles t.depth (t.dividesByZero id) (t.value id) [] ((sum 0 t.tokens).map plain) := by
  have h := t.reads (d := 0) (ends_nil 0)
  rwa [List.append_nil, Nat.zero_add] at h

/-- What a text is worth whose tokens are those of a tree. -/
theorem evaluate_tree {s : String} {t : Derivation Float .sum}
    (h : tokens [] s.toList = .ok t.tokens) :
    (∀ v, evaluate s = .ok v ↔ t.depth ≤ maxDepth ∧ t.dividesByZero id = false ∧
        t.value id = v ∧ Decimal.isFinite v = true) ∧
      ∀ e, evaluate s = .error e →
        e = .tooDeep ∧ maxDepth < t.depth ∨
        e = .divisionByZero ∧ t.dividesByZero id = true ∨
        e = .notFinite ∧ Decimal.isFinite (t.value id) = false := by
  rw [evaluate_of_tokens h]
  have hsettles := settles_tokens t
  generalize (sum 0 t.tokens).map plain = x at hsettles
  cases hsettles with
  | value hm hz =>
    rw [Except.ok_bind]
    refine ⟨fun v => ?_, fun e he => .inr (.inr ?_)⟩
    · rw [conclude_eq_ok]
      simp [hm, hz]
    · by_cases hfinite : Decimal.isFinite (t.value id) = true
      · rw [conclude_eq_ok.mpr ⟨rfl, rfl, hfinite⟩] at he
        cases he
      · simp only [conclude, List.isEmpty_nil, Bool.not_true, Bool.false_eq_true, if_false,
          hfinite] at he
        cases he
        exact ⟨rfl, Bool.eq_false_iff.mpr hfinite⟩
  | tooDeep hm =>
    refine ⟨fun v => ⟨nofun, fun h => absurd h.1 (Nat.not_le.mpr hm)⟩, ?_⟩
    rintro _ ⟨⟩
    exact .inl ⟨rfl, hm⟩
  | divisionByZero hz =>
    refine ⟨fun v => ⟨nofun, fun h => absurd (h.2.1.symm.trans hz) Bool.false_ne_true⟩, ?_⟩
    rintro _ ⟨⟩
    exact .inr (.inl ⟨rfl, hz⟩)

/-- A text is worth what the one tree of its tokens is worth, if there is such a tree, it keeps
within the limit, divides by nothing that is zero and is worth a finite number. Otherwise the text
is refused; where there is a tree, for one of these three reasons. -/
theorem evaluate_grammar {s : String} {ts : List Token} (h : tokens [] s.toList = .ok ts) :
    (∀ t u : Derivation Float .sum, t.tokens = ts → u.tokens = ts → t = u) ∧
      (∀ v, evaluate s = .ok v ↔ ∃ t : Derivation Float .sum, t.tokens = ts ∧
        t.depth ≤ maxDepth ∧ t.dividesByZero id = false ∧ t.value id = v ∧
        Decimal.isFinite v = true) ∧
      (∀ t : Derivation Float .sum, t.tokens = ts → ∀ e, evaluate s = .error e →
        e = .tooDeep ∧ maxDepth < t.depth ∨
        e = .divisionByZero ∧ t.dividesByZero id = true ∨
        e = .notFinite ∧ Decimal.isFinite (t.value id) = false) := by
  refine ⟨fun t u ht hu => Derivation.tokens_injective (ht.trans hu.symm),
    fun v => ⟨fun hv => ?_, ?_⟩, fun t ht => (evaluate_tree (ht ▸ h)).2⟩
  · have hread := hv
    rw [evaluate_of_tokens h] at hread
    obtain ⟨⟨x, rest⟩, hsum, hconclude⟩ := Except.bind_eq_ok.mp hread
    obtain ⟨rfl, -, -⟩ := conclude_eq_ok.mp hconclude
    have hsound := sound_sum 0 ts
    rw [hsum] at hsound
    obtain ⟨t, ht⟩ := hsound
    rw [List.append_nil] at ht
    exact ⟨t, ht.symm, ((evaluate_tree (ht ▸ h)).1 v).mp hv⟩
  · rintro ⟨t, rfl, hv⟩
    exact ((evaluate_tree h).1 v).mpr hv

/-- Differences group to the left, and a sign binds more tightly than the remainder. -/
theorem evaluate_grammar_signs :
    tokens [] "2-1 - (-3)%2".toList = .ok [.number 2, .minus, .number 1, .minus, .openParen,
        .minus, .number 3, .closeParen, .percent, .number 2] ∧
      evaluate "2-1 - (-3)%2" = .ok 2 := by
  have h : tokens [] "2-1 - (-3)%2".toList = .ok [.number 2, .minus, .number 1, .minus, .openParen,
      .minus, .number 3, .closeParen, .percent, .number 2] :=
    Except.toOption_eq_some.mp (by decide +kernel)
  let three : Derivation Float .factor :=
    .group (.sum (.product (.negative (.leaf 3)) .noFactor) .noTerm)
  let t : Derivation Float .sum :=
    .sum (.product (.leaf 2) .noFactor) (.term .minus (.product (.leaf 1) .noFactor)
      (.term .minus (.product three (.times .percent (.leaf 2) .noFactor)) .noTerm))
  exact ⟨h, ((evaluate_grammar h).2.1 2).mpr
    ⟨t, rfl, by decide +kernel, by decide +kernel, by decide +kernel, by decide +kernel⟩⟩

end Switchboard.Formula
