import Switchboard.Proofs.Expression.Grammar
import Switchboard.Proofs.Expression.Steps

/-! What the grammar derives, the parser reads: with the value of the derivation if that nests no
deeper than the limit, and as too deep otherwise. -/
namespace Switchboard.Expression

/-- A result, unless the counter went past the limit. -/
def bounded {α : Type} (m : Nat) (x : α × List Located) : Except ParseError (α × List Located) :=
  if m ≤ maxDepth then .ok x else .error .tooDeep

theorem bounded_of_le {α : Type} {m : Nat} (h : m ≤ maxDepth) (x : α × List Located) :
    bounded m x = .ok x := if_pos h

theorem bounded_of_lt {α : Type} {m : Nat} (h : maxDepth < m) (x : α × List Located) :
    bounded m x = .error .tooDeep := if_neg (Nat.not_le.mpr h)

/-- Of two steps each may go past the limit. -/
theorem bounded_bind {α β : Type} {m n : Nat} {x : α × List Located} {y : β × List Located}
    {f : α × List Located → Except ParseError (β × List Located)} (h : f x = bounded n y) :
    (bounded m x >>= f) = bounded (max m n) y := by
  by_cases hm : m ≤ maxDepth
  · rw [bounded_of_le hm, Except.ok_bind, h]
    unfold bounded
    simp only [Nat.max_le, hm, true_and]
  · rw [bounded_of_lt (Nat.not_le.mp hm), bounded_of_lt (by omega)]
    rfl

theorem bounded_map {α β : Type} {m : Nat} {x : α × List Located} {y : β × List Located}
    {f : α × List Located → Except ParseError (β × List Located)} (h : f x = .ok y) :
    (bounded m x >>= f) = bounded m y := by
  by_cases hm : m ≤ maxDepth
  · rw [bounded_of_le hm, bounded_of_le hm, Except.ok_bind, h]
  · rw [bounded_of_lt (Nat.not_le.mp hm), bounded_of_lt (Nat.not_le.mp hm)]
    rfl

/-- A step that the parser enters one level deeper. -/
theorem enter_eq_bounded {α : Type} {c m : Nat} {x : α × List Located}
    {y : Except ParseError (α × List Located)} (hm : c < m)
    (h : c + 1 ≤ maxDepth → y = bounded m x) :
    (if maxDepth ≤ c then .error .tooDeep else y) = bounded m x := by
  split
  · exact (bounded_of_lt (by omega) x).symm
  · exact h (by omega)

/-- How tightly a token holds on to what stands before it. -/
def Token.grip : Token → Nat
  | op .or => 1
  | op .and => 2
  | op _ => 3
  | dot => 4
  | openParen => 4
  | openBracket => 4
  | _ => 0

/-- Nothing that comes next holds on more tightly than `n`. -/
def Ends (n : Nat) : List Located → Prop
  | [] => True
  | t :: _ => t.token.grip ≤ n

theorem Ends.mono {m n : Nat} (h : m ≤ n) {rest : List Located} (hr : Ends m rest) :
    Ends n rest := by
  cases rest with
  | nil => trivial
  | cons t r => exact Nat.le_trans hr h

theorem Ends.ne {n : Nat} {rest : List Located} (hr : Ends n rest) {t : Token} (ht : n < t.grip)
    (p : Nat) (r : List Located) : rest ≠ ⟨t, p⟩ :: r := by
  rintro rfl
  exact absurd hr (Nat.not_le.mpr ht)

theorem ends_cons {n : Nat} (t : Token) (ht : t.grip ≤ n) (p : Nat) (r : List Located) :
    Ends n (⟨t, p⟩ :: r) := ht

/-- The located tokens are the given ones. -/
def Spells (ts : List Located) (us : List Token) : Prop := ts.map (·.token) = us

theorem Spells.append {ts : List Located} {us vs : List Token} (h : Spells ts (us ++ vs)) :
    ∃ ps qs, ts = ps ++ qs ∧ Spells ps us ∧ Spells qs vs := List.map_eq_append_iff.mp h

theorem Spells.cons {ts : List Located} {t : Token} {us : List Token} (h : Spells ts (t :: us)) :
    ∃ p qs, ts = ⟨t, p⟩ :: qs ∧ Spells qs us := by
  obtain ⟨⟨_, p⟩, qs, rfl, rfl, hq⟩ := List.map_eq_cons_iff.mp h
  exact ⟨p, qs, rfl, hq⟩

theorem Spells.nil {ts : List Located} (h : Spells ts []) : ts = [] := List.map_eq_nil_iff.mp h

/-- The parser reads a derivation, whatever comes after it that does not hold on to it. -/
def Derivation.Completes : {k : Nonterminal} → Derivation k → Prop
  | .expr, t => ∀ {stop c ts rest}, c ≤ maxDepth → Spells ts t.tokens → Ends 0 rest →
    bare (parseExpr stop c (ts ++ rest)) = bounded (t.depth c) (t.value, rest)
  | .disjunction, t => ∀ {stop c ts rest}, c ≤ maxDepth → Spells ts t.tokens → Ends 0 rest →
    bare (parseOr stop c (ts ++ rest)) = bounded (t.depth c) (t.value, rest)
  | .disjuncts, t => ∀ {stop c ts rest} e, c ≤ maxDepth → Spells ts t.tokens → Ends 0 rest →
    bare (parseOrTail stop c e (ts ++ rest)) = bounded (t.depth c) (t.value e, rest)
  | .conjunction, t => ∀ {stop c ts rest}, c ≤ maxDepth → Spells ts t.tokens → Ends 1 rest →
    bare (parseAnd stop c (ts ++ rest)) = bounded (t.depth c) (t.value, rest)
  | .conjuncts, t => ∀ {stop c ts rest} e, c ≤ maxDepth → Spells ts t.tokens → Ends 1 rest →
    bare (parseAndTail stop c e (ts ++ rest)) = bounded (t.depth c) (t.value e, rest)
  | .comparison, t => ∀ {stop c ts rest}, c ≤ maxDepth → Spells ts t.tokens → Ends 2 rest →
    bare (parseComparison stop c (ts ++ rest)) = bounded (t.depth c) (t.value, rest)
  | .unary, t => ∀ {stop c ts rest}, c ≤ maxDepth → Spells ts t.tokens → Ends 3 rest →
    bare (parseUnary stop c (ts ++ rest)) = bounded (t.depth c) (t.value, rest)
  | .linked, t => ∀ {stop c ts rest}, c ≤ maxDepth → Spells ts t.tokens → Ends 3 rest →
    bare (parsePostfix stop c (ts ++ rest)) = bounded (t.depth c) (t.value, rest)
  | .links, t => ∀ {stop c ts rest} e, c ≤ maxDepth → Spells ts t.tokens → Ends 3 rest →
    bare (parseLinks stop c e (ts ++ rest)) = bounded (t.depth c) (t.value e, rest)
  | .call, t => ∀ {stop c ts rest} e, c ≤ maxDepth → Spells ts t.tokens →
    ∃ name p pos us, ts = ⟨.name name, p⟩ :: ⟨.openParen, pos⟩ :: us ∧
      bare (parseCall stop c e name pos (us ++ rest)) = bounded (t.depth c) (t.value e, rest)
  | .primary, t => ∀ {stop c ts rest}, c ≤ maxDepth → Spells ts t.tokens →
    bare (parsePrimary stop c (ts ++ rest)) = bounded (t.depth c) (t.value, rest)
  | .items, t => ∀ {stop c ts} p r, c ≤ maxDepth → Spells ts t.tokens →
    bare (parseItems stop c (ts ++ ⟨.closeBracket, p⟩ :: r)) =
      bounded (t.depth c) (t.value, ⟨.closeBracket, p⟩ :: r)
  | .members, t => ∀ {stop c ts} p r, c ≤ maxDepth → Spells ts t.tokens →
    bare (parseMembers stop c (ts ++ ⟨.closeBrace, p⟩ :: r)) =
      bounded (t.depth c) (t.value, ⟨.closeBrace, p⟩ :: r)
  | .lambda, t => ∀ {stop c ts rest}, c ≤ maxDepth → Spells ts t.tokens → Ends 0 rest →
    bare (parseLambda stop c (ts ++ rest)) = bounded (t.depth c) (t.value, rest)

namespace Derivation

theorem Completes.expr {t : Derivation .disjunction} (ht : t.Completes) :
    (Derivation.expr t).Completes := by
  intro stop c ts rest hc hts hr
  rw [bare_parseExpr]
  exact enter_eq_bounded (t.le_depth (c + 1)) fun hd => ht hd hts hr

/-- Further operands of `||` begin with `||`. -/
theorem ends_disjuncts {t : Derivation .disjuncts} {ts rest : List Located}
    (hts : Spells ts t.tokens) (hr : Ends 0 rest) : Ends 1 (ts ++ rest) := by
  cases t with
  | noDisjunct =>
    rw [hts.nil]
    exact hr.mono (by omega)
  | disjunct operand others =>
    obtain ⟨p, qs, rfl, -⟩ := hts.cons
    exact Nat.le_refl 1

theorem Completes.disjunction {first : Derivation .conjunction} {others : Derivation .disjuncts}
    (hf : first.Completes) (ho : others.Completes) : (disjunction first others).Completes := by
  intro stop c ts rest hc hts hr
  obtain ⟨us, vs, rfl, hu, hv⟩ := hts.append
  rw [List.append_assoc, bare_parseOr, hf hc hu (ends_disjuncts hv hr)]
  exact bounded_bind (ho _ hc hv hr)

theorem Completes.noDisjunct : Completes .noDisjunct := by
  intro stop c ts rest e hc hts hr
  rw [hts.nil, List.nil_append, bare_parseOrTail_of_ne e (hr.ne (by decide))]
  exact (bounded_of_le hc _).symm

theorem Completes.disjunct {operand : Derivation .conjunction} {others : Derivation .disjuncts}
    (hf : operand.Completes) (ho : others.Completes) : (disjunct operand others).Completes := by
  intro stop c ts rest e hc hts hr
  obtain ⟨p, qs, rfl, hq⟩ := hts.cons
  obtain ⟨us, vs, rfl, hu, hv⟩ := hq.append
  have hm := others.le_depth (c + 1)
  rw [List.cons_append, List.append_assoc, bare_parseOrTail_or]
  refine enter_eq_bounded (by simp only [depth]; omega) fun hd => ?_
  rw [hf hd hu (ends_disjuncts hv hr)]
  exact bounded_bind (ho _ hd hv hr)

/-- Further operands of `&&` begin with `&&`. -/
theorem ends_conjuncts {t : Derivation .conjuncts} {ts rest : List Located}
    (hts : Spells ts t.tokens) (hr : Ends 1 rest) : Ends 2 (ts ++ rest) := by
  cases t with
  | noConjunct =>
    rw [hts.nil]
    exact hr.mono (by omega)
  | conjunct operand others =>
    obtain ⟨p, qs, rfl, -⟩ := hts.cons
    exact Nat.le_refl 2

theorem Completes.conjunction {first : Derivation .comparison} {others : Derivation .conjuncts}
    (hf : first.Completes) (ho : others.Completes) : (conjunction first others).Completes := by
  intro stop c ts rest hc hts hr
  obtain ⟨us, vs, rfl, hu, hv⟩ := hts.append
  rw [List.append_assoc, bare_parseAnd, hf hc hu (ends_conjuncts hv hr)]
  exact bounded_bind (ho _ hc hv hr)

theorem Completes.noConjunct : Completes .noConjunct := by
  intro stop c ts rest e hc hts hr
  rw [hts.nil, List.nil_append, bare_parseAndTail_of_ne e (hr.ne (by decide))]
  exact (bounded_of_le hc _).symm

theorem Completes.conjunct {operand : Derivation .comparison} {others : Derivation .conjuncts}
    (hf : operand.Completes) (ho : others.Completes) : (conjunct operand others).Completes := by
  intro stop c ts rest e hc hts hr
  obtain ⟨p, qs, rfl, hq⟩ := hts.cons
  obtain ⟨us, vs, rfl, hu, hv⟩ := hq.append
  have hm := others.le_depth (c + 1)
  rw [List.cons_append, List.append_assoc, bare_parseAndTail_and]
  refine enter_eq_bounded (by simp only [depth]; omega) fun hd => ?_
  rw [hf hd hu (ends_conjuncts hv hr)]
  exact bounded_bind (ho _ hd hv hr)

/-- No comparison stands where nothing holds on more tightly than a connective. -/
theorem comparison?_of_ends {rest : List Located} (hr : Ends 2 rest) : comparison? rest = none := by
  rcases rest with _ | ⟨⟨t, p⟩, r⟩
  · rfl
  · cases t with
    | op o => cases o <;> first | rfl | exact absurd hr (by decide : ¬ 3 ≤ 2)
    | _ => rfl

theorem Completes.alone {t : Derivation .unary} (ht : t.Completes) :
    (Derivation.alone t).Completes := by
  intro stop c ts rest hc hts hr
  rw [bare_parseComparison, ht hc hts (hr.mono (by omega))]
  refine bounded_map ?_
  simp only [comparison?_of_ends hr]
  rfl

theorem Completes.compare {lhs rhs : Derivation .unary} {o : Operator} (h : o.isComparison = true)
    (hl : lhs.Completes) (hh : rhs.Completes) : (compare lhs o h rhs).Completes := by
  intro stop c ts rest hc hts hr
  obtain ⟨us, qs, rfl, hu, hq⟩ := hts.append
  obtain ⟨p, vs, rfl, hv⟩ := hq.cons
  have hgrip : (Token.op o).grip ≤ 3 := by cases o <;> decide
  rw [List.append_assoc, List.cons_append, bare_parseComparison,
    hl hc hu (ends_cons _ hgrip _ _)]
  refine bounded_bind ?_
  simp only [comparison?, h, ite_true]
  rw [hh hc hv (hr.mono (by omega))]
  exact bounded_map rfl

theorem Completes.not {t : Derivation .unary} (ht : t.Completes) :
    (Derivation.not t).Completes := by
  intro stop c ts rest hc hts hr
  obtain ⟨p, qs, rfl, hq⟩ := hts.cons
  rw [List.cons_append, bare_parseUnary_not]
  refine enter_eq_bounded (t.le_depth (c + 1)) fun hd => ?_
  rw [ht hd hq hr]
  exact bounded_map rfl


/-- An operand does not begin with `!`. -/
theorem start_linked (t : Derivation .linked) : ∃ u us, t.tokens = u :: us ∧ u ≠ .not := by
  cases t with
  | linked target links => cases target <;> exact ⟨_, _, rfl, by simp⟩

theorem Completes.plain {t : Derivation .linked} (ht : t.Completes) :
    (Derivation.plain t).Completes := by
  intro stop c ts rest hc hts hr
  obtain ⟨u, us, hu, hne⟩ := t.start_linked
  obtain ⟨p, qs, rfl, -⟩ := (hu ▸ hts : Spells ts (u :: us)).cons
  rw [bare_parseUnary_of_ne (by simp [hne])]
  exact ht hc hts hr

/-- Links begin with a point or a bracket, so whatever can begin them may follow their target. -/
theorem Completes.linked {target : Derivation .primary} {links : Derivation .links}
    (ht : target.Completes) (hl : links.Completes) : (linked target links).Completes := by
  intro stop c ts rest hc hts hr
  obtain ⟨us, vs, rfl, hu, hv⟩ := hts.append
  rw [List.append_assoc, bare_parsePostfix, ht hc hu]
  exact bounded_bind (hl _ hc hv hr)

theorem Completes.noLink : Completes .noLink := by
  intro stop c ts rest e hc hts hr
  rw [hts.nil, List.nil_append,
    bare_parseLinks_of_ne e (hr.ne (by decide)) (hr.ne (by decide))]
  exact (bounded_of_le hc _).symm

/-- No parenthesis comes first in links and what follows them. -/
theorem ne_openParen_links {t : Derivation .links} {ts rest : List Located}
    (hts : Spells ts t.tokens) (hr : Ends 3 rest) (p : Nat) (r : List Located) :
    ts ++ rest ≠ ⟨.openParen, p⟩ :: r := by
  cases t with
  | noLink =>
    rw [hts.nil]
    exact hr.ne (by decide) p r
  | property name more =>
    obtain ⟨q, qs, rfl, -⟩ := hts.cons
    simp
  | call m more =>
    obtain ⟨q, qs, rfl, -⟩ := hts.cons
    simp
  | index key more =>
    obtain ⟨q, qs, rfl, -⟩ := hts.cons
    simp

theorem Completes.property {name : String} {more : Derivation .links} (hm : more.Completes) :
    (property name more).Completes := by
  intro stop c ts rest e hc hts hr
  obtain ⟨p, ps, rfl, hp⟩ := hts.cons
  obtain ⟨q, qs, rfl, hq⟩ := hp.cons
  rw [List.cons_append, List.cons_append,
    bare_parseLinks_property e name p q (ne_openParen_links hq hr)]
  exact enter_eq_bounded (more.le_depth (c + 1)) fun hd => hm _ hd hq hr

theorem Completes.call {m : Derivation .call} {more : Derivation .links} (hc : m.Completes)
    (hm : more.Completes) : (call m more).Completes := by
  intro stop c ts rest e hle hts hr
  obtain ⟨p, ps, rfl, hp⟩ := hts.cons
  obtain ⟨us, vs, rfl, hu, hv⟩ := hp.append
  have hd := more.le_depth (c + 1)
  obtain ⟨name, q, pos, qs, rfl, -⟩ := @hc stop maxDepth us (vs ++ rest) e (Nat.le_refl _) hu
  rw [List.cons_append, List.append_assoc, List.cons_append, List.cons_append,
    bare_parseLinks_call]
  refine enter_eq_bounded (by simp only [depth]; omega) fun hd => ?_
  obtain ⟨_, _, _, _, heq, hcall⟩ := @hc stop (c + 1) _ (vs ++ rest) e hd hu
  cases heq
  rw [hcall]
  exact bounded_bind (hm _ hd hv hr)

theorem Completes.index {key : Derivation .expr} {more : Derivation .links} (hk : key.Completes)
    (hm : more.Completes) : (index key more).Completes := by
  intro stop c ts rest e hc hts hr
  obtain ⟨p, ps, rfl, hp⟩ := hts.cons
  obtain ⟨us, qs, rfl, hu, hq⟩ := hp.append
  obtain ⟨q, vs, rfl, hv⟩ := hq.cons
  have hd := more.le_depth (c + 1)
  rw [List.cons_append, List.append_assoc, List.cons_append, bare_parseLinks_index]
  refine enter_eq_bounded (by simp only [depth]; omega) fun hd => ?_
  rw [hk hd hu (ends_cons .closeBracket (Nat.zero_le 0) _ _)]
  exact bounded_bind (hm _ hd hv hr)

theorem Completes.method (m : Method) : (method m).Completes := by
  intro stop c ts rest e hc hts
  obtain ⟨p, ps, rfl, hp⟩ := hts.cons
  obtain ⟨q, qs, rfl, hq⟩ := hp.cons
  obtain ⟨o, os, rfl, ho⟩ := hq.cons
  rw [ho.nil]
  refine ⟨_, _, _, _, rfl, ?_⟩
  cases m with
  | sort =>
    rw [List.singleton_append, Method.name, bare_parseCall_sort]
    exact (bounded_of_le hc _).symm
  | _ =>
    rw [bare_parseCall_method e q _ rfl (Method.ofName?_name _)]
    exact (bounded_of_le hc _).symm

/-- A lambda does not begin with the parenthesis that closes a call. -/
theorem after?_close_lambda {t : Derivation .lambda} {ts : List Located} (rest : List Located)
    (hts : Spells ts t.tokens) : after? (· matches .closeParen) (ts ++ rest) = none := by
  cases t with
  | lambda param body =>
    obtain ⟨p, ps, rfl, -⟩ := hts.cons
    rfl
  | lambdaGroup param body =>
    obtain ⟨p, ps, rfl, -⟩ := hts.cons
    rfl

theorem Completes.visit (m : Visit) {f : Derivation .lambda} (hf : f.Completes) :
    (visit m f).Completes := by
  intro stop c ts rest e hc hts
  obtain ⟨p, ps, rfl, hp⟩ := hts.cons
  obtain ⟨q, qs, rfl, hq⟩ := hp.cons
  obtain ⟨us, os, rfl, hu, ho⟩ := hq.append
  obtain ⟨o, vs, rfl, hv⟩ := ho.cons
  rw [hv.nil]
  refine ⟨_, _, _, _, rfl, ?_⟩
  rw [List.append_assoc, bare_parseCall_visit e q (Visit.ofName?_name m)
    fun _ => after?_close_lambda _ hu, List.singleton_append,
    hf hc hu (ends_cons .closeParen (Nat.zero_le 0) _ _)]
  exact bounded_map rfl

theorem Completes.slice {start : Derivation .expr} (hs : start.Completes) :
    (slice start).Completes := by
  intro stop c ts rest e hc hts
  obtain ⟨p, ps, rfl, hp⟩ := hts.cons
  obtain ⟨q, qs, rfl, hq⟩ := hp.cons
  obtain ⟨us, os, rfl, hu, ho⟩ := hq.append
  obtain ⟨o, vs, rfl, hv⟩ := ho.cons
  rw [hv.nil]
  refine ⟨_, _, _, _, rfl, ?_⟩
  rw [bare_parseCall_other e q _ rfl rfl, if_pos rfl, bare_parseSlice, List.append_assoc,
    List.singleton_append, hs hc hu (ends_cons .closeParen (Nat.zero_le 0) _ _)]
  exact bounded_map rfl

theorem Completes.sliceTo {start last : Derivation .expr} (hs : start.Completes)
    (hl : last.Completes) : (sliceTo start last).Completes := by
  intro stop c ts rest e hc hts
  obtain ⟨p, ps, rfl, hp⟩ := hts.cons
  obtain ⟨q, qs, rfl, hq⟩ := hp.cons
  obtain ⟨us, os, rfl, hu, ho⟩ := hq.append
  obtain ⟨o, vs, rfl, hv⟩ := ho.cons
  obtain ⟨ws, ns, rfl, hw, hn⟩ := hv.append
  obtain ⟨n, ms, rfl, hm⟩ := hn.cons
  rw [hm.nil]
  refine ⟨_, _, _, _, rfl, ?_⟩
  rw [bare_parseCall_other e q _ rfl rfl, if_pos rfl, bare_parseSlice, List.append_assoc,
    List.cons_append, hs hc hu (ends_cons .comma (Nat.zero_le 0) _ _)]
  refine bounded_bind ?_
  simp only [after?, ite_true]
  rw [List.append_assoc, List.singleton_append,
    hl hc hw (ends_cons .closeParen (Nat.zero_le 0) _ _)]
  exact bounded_map rfl

theorem Completes.root : Completes .root := by
  intro stop c ts rest hc hts
  obtain ⟨p, ps, rfl, hp⟩ := hts.cons
  rw [hp.nil, List.singleton_append, parsePrimary]
  exact (bounded_of_le hc _).symm

theorem Completes.number (x : Float) : Completes (.number x) := by
  intro stop c ts rest hc hts
  obtain ⟨p, ps, rfl, hp⟩ := hts.cons
  rw [hp.nil, List.singleton_append, parsePrimary]
  exact (bounded_of_le hc _).symm

theorem Completes.text (s : String) : Completes (.text s) := by
  intro stop c ts rest hc hts
  obtain ⟨p, ps, rfl, hp⟩ := hts.cons
  rw [hp.nil, List.singleton_append, parsePrimary]
  exact (bounded_of_le hc _).symm

/-- The parser reads a name that stands alone as `ofName` says. -/
theorem completes_of_name {t : Derivation .primary} {name : String} (ht : t.tokens = [.name name])
    (hv : ofName name = t.value) (hd : ∀ c, t.depth c = c) : t.Completes := by
  intro stop c ts rest hc hts
  obtain ⟨p, ps, rfl, hp⟩ := (ht ▸ hts : Spells ts [.name name]).cons
  rw [hp.nil, List.singleton_append, parsePrimary, hv, hd]
  exact (bounded_of_le hc _).symm

theorem ofName_of_not_mem {name : String} (h : name ∉ reserved) : ofName name = .var name := by
  simp only [reserved, List.mem_cons, List.not_mem_nil, or_false, not_or] at h
  obtain ⟨ht, hf, hn, hu⟩ := h
  unfold ofName
  rw [if_neg ht, if_neg hf, if_neg hn, if_neg hu]

theorem Completes.group {t : Derivation .expr} (ht : t.Completes) : (group t).Completes := by
  intro stop c ts rest hc hts
  obtain ⟨p, ps, rfl, hp⟩ := hts.cons
  obtain ⟨us, qs, rfl, hu, hq⟩ := hp.append
  obtain ⟨q, os, rfl, ho⟩ := hq.cons
  rw [ho.nil, List.cons_append, List.append_assoc, List.singleton_append, bare_parsePrimary_group,
    ht hc hu (ends_cons .closeParen (Nat.zero_le 0) _ _)]
  exact bounded_map rfl

theorem Completes.object {members : Derivation .members} (hm : members.Completes) :
    (object members).Completes := by
  intro stop c ts rest hc hts
  obtain ⟨p, ps, rfl, hp⟩ := hts.cons
  obtain ⟨us, qs, rfl, hu, hq⟩ := hp.append
  obtain ⟨q, os, rfl, ho⟩ := hq.cons
  rw [ho.nil, List.cons_append, List.append_assoc, List.singleton_append, bare_parsePrimary_object,
    hm q rest hc hu]
  exact bounded_map rfl

theorem Completes.array {items : Derivation .items} (hi : items.Completes) :
    (array items).Completes := by
  intro stop c ts rest hc hts
  obtain ⟨p, ps, rfl, hp⟩ := hts.cons
  obtain ⟨us, qs, rfl, hu, hq⟩ := hp.append
  obtain ⟨q, os, rfl, ho⟩ := hq.cons
  rw [ho.nil, List.cons_append, List.append_assoc, List.singleton_append, bare_parsePrimary_array,
    hi q rest hc hu]
  exact bounded_map rfl

/-- The nonterminals that an expression begins with. -/
def isOperand : Nonterminal → Bool
  | .expr => true
  | .disjunction => true
  | .conjunction => true
  | .comparison => true
  | .unary => true
  | .linked => true
  | .primary => true
  | _ => false

/-- An expression does not begin with the bracket that closes an array. -/
theorem start_operand {k : Nonterminal} (t : Derivation k) (hk : isOperand k = true) :
    ∃ u us, t.tokens = u :: us ∧ u ≠ .closeBracket := by
  induction t with
  | expr t ih => exact ih rfl
  | alone t ih => exact ih rfl
  | plain t ih => exact ih rfl
  | disjunction first others ih =>
    obtain ⟨u, us, hu, hne⟩ := ih rfl
    exact ⟨u, us ++ others.tokens, by rw [tokens, hu]; rfl, hne⟩
  | conjunction first others ih =>
    obtain ⟨u, us, hu, hne⟩ := ih rfl
    exact ⟨u, us ++ others.tokens, by rw [tokens, hu]; rfl, hne⟩
  | compare lhs o h rhs ih =>
    obtain ⟨u, us, hu, hne⟩ := ih rfl
    exact ⟨u, us ++ .op o :: rhs.tokens, by rw [tokens, hu]; rfl, hne⟩
  | linked target links ih =>
    obtain ⟨u, us, hu, hne⟩ := ih rfl
    exact ⟨u, us ++ links.tokens, by rw [tokens, hu]; rfl, hne⟩
  | not | root | number | text | bool | null | undefined | var | group | object | array =>
    exact ⟨_, _, rfl, by simp⟩
  | _ => cases hk

theorem Completes.noItem : Completes .noItem := by
  intro stop c ts p r hc hts
  rw [hts.nil, List.nil_append, bare_parseItems_close]
  exact (bounded_of_le hc _).symm

theorem ne_closeBracket {t : Derivation .expr} {ts : List Located} (hts : Spells ts t.tokens)
    (rest : List Located) (p : Nat) (r : List Located) : ts ++ rest ≠ ⟨.closeBracket, p⟩ :: r := by
  obtain ⟨u, us, hu, hne⟩ := t.start_operand rfl
  obtain ⟨q, qs, rfl, -⟩ := (hu ▸ hts : Spells ts (u :: us)).cons
  simp [hne]

theorem Completes.lastItem {t : Derivation .expr} (ht : t.Completes) :
    (lastItem t).Completes := by
  intro stop c ts p r hc hts
  rw [bare_parseItems_of_ne (ne_closeBracket hts _),
    ht hc hts (ends_cons .closeBracket (Nat.zero_le 0) _ _)]
  exact bounded_map rfl

theorem Completes.item {t : Derivation .expr} {more : Derivation .items} (ht : t.Completes)
    (hm : more.Completes) : (item t more).Completes := by
  intro stop c ts p r hc hts
  obtain ⟨us, qs, rfl, hu, hq⟩ := hts.append
  obtain ⟨q, vs, rfl, hv⟩ := hq.cons
  rw [List.append_assoc, bare_parseItems_of_ne (ne_closeBracket hu _), List.cons_append,
    ht hc hu (ends_cons .comma (Nat.zero_le 0) _ _)]
  refine bounded_bind ?_
  simp only [after?, ite_true]
  rw [hm p r hc hv]
  exact bounded_map rfl

theorem Completes.noMember : Completes .noMember := by
  intro stop c ts p r hc hts
  rw [hts.nil, List.nil_append, bare_parseMembers_close]
  exact (bounded_of_le hc _).symm

/-- A member is read by its key, of either kind. -/
theorem bare_parseMembers_key {stop c : Nat} (key : Key) (p : Nat) (ts : List Located) :
    bare (parseMembers stop c (⟨key.token, p⟩ :: ts)) =
      bare (parseMember stop c key.string ts) := by
  cases key with
  | name s => exact bare_parseMembers_name s p ts
  | text s => exact bare_parseMembers_text s p ts

theorem Completes.lastMember (key : Key) {t : Derivation .expr} (ht : t.Completes) :
    (lastMember key t).Completes := by
  intro stop c ts p r hc hts
  obtain ⟨o, os, rfl, ho⟩ := hts.cons
  obtain ⟨n, ns, rfl, hn⟩ := ho.cons
  rw [List.cons_append, bare_parseMembers_key, bare_parseMember]
  simp only [List.cons_append, skip, ite_true, Except.ok_bind]
  rw [ht hc hn (ends_cons .closeBrace (Nat.zero_le 0) _ _)]
  exact bounded_map rfl

theorem Completes.member (key : Key) {t : Derivation .expr} {more : Derivation .members}
    (ht : t.Completes) (hm : more.Completes) : (member key t more).Completes := by
  intro stop c ts p r hc hts
  obtain ⟨o, os, rfl, ho⟩ := hts.cons
  obtain ⟨n, ns, rfl, hn⟩ := ho.cons
  obtain ⟨us, qs, rfl, hu, hq⟩ := hn.append
  obtain ⟨q, vs, rfl, hv⟩ := hq.cons
  rw [List.cons_append, bare_parseMembers_key, bare_parseMember]
  simp only [List.cons_append, skip, ite_true, Except.ok_bind]
  rw [List.append_assoc, List.cons_append, ht hc hu (ends_cons .comma (Nat.zero_le 0) _ _)]
  refine bounded_bind ?_
  simp only [after?, ite_true]
  rw [hm p r hc hv]
  exact bounded_map rfl

theorem Completes.lambda (param : String) {body : Derivation .expr} (hb : body.Completes) :
    (lambda param body).Completes := by
  intro stop c ts rest hc hts hr
  obtain ⟨p, ps, rfl, hp⟩ := hts.cons
  obtain ⟨q, qs, rfl, hq⟩ := hp.cons
  rw [List.cons_append, List.cons_append, bare_parseLambda_name, hb hc hq hr]
  exact bounded_map rfl

theorem Completes.lambdaGroup (param : String) {body : Derivation .expr} (hb : body.Completes) :
    (lambdaGroup param body).Completes := by
  intro stop c ts rest hc hts hr
  obtain ⟨p, ps, rfl, hp⟩ := hts.cons
  obtain ⟨q, qs, rfl, hq⟩ := hp.cons
  obtain ⟨o, os, rfl, ho⟩ := hq.cons
  obtain ⟨n, ns, rfl, hn⟩ := ho.cons
  simp only [List.cons_append]
  rw [bare_parseLambda_group]
  simp only [skip, ite_true, Except.ok_bind]
  rw [hb hc hn hr]
  exact bounded_map rfl

/-- The parser reads every derivation. -/
theorem completes {k : Nonterminal} (t : Derivation k) : t.Completes := by
  induction t with
  | expr t ht => exact ht.expr
  | disjunction first others hf ho => exact hf.disjunction ho
  | noDisjunct => exact Completes.noDisjunct
  | disjunct operand others hf ho => exact hf.disjunct ho
  | conjunction first others hf ho => exact hf.conjunction ho
  | noConjunct => exact Completes.noConjunct
  | conjunct operand others hf ho => exact hf.conjunct ho
  | alone t ht => exact ht.alone
  | compare lhs o h rhs hl hr => exact hl.compare h hr
  | not t ht => exact ht.not
  | plain t ht => exact ht.plain
  | linked target links ht hl => exact ht.linked hl
  | noLink => exact Completes.noLink
  | property name more hm => exact hm.property
  | call m more hc hm => exact hc.call hm
  | index key more hk hm => exact hk.index hm
  | method m => exact Completes.method m
  | visit m f hf => exact hf.visit m
  | slice start hs => exact hs.slice
  | sliceTo start last hs hl => exact hs.sliceTo hl
  | root => exact Completes.root
  | number x => exact Completes.number x
  | text s => exact Completes.text s
  | bool b => exact completes_of_name rfl (by cases b <;> rfl) fun _ => rfl
  | null => exact completes_of_name rfl rfl fun _ => rfl
  | undefined => exact completes_of_name rfl rfl fun _ => rfl
  | var name h => exact completes_of_name rfl (ofName_of_not_mem h) fun _ => rfl
  | group t ht => exact ht.group
  | object members hm => exact hm.object
  | array items hi => exact hi.array
  | noItem => exact Completes.noItem
  | lastItem t ht => exact ht.lastItem
  | item t more ht hm => exact ht.item hm
  | noMember => exact Completes.noMember
  | lastMember key t ht => exact ht.lastMember key
  | member key t more ht hm => exact ht.member key hm
  | lambda param body hb => exact hb.lambda param
  | lambdaGroup param body hb => exact hb.lambdaGroup param

end Derivation
end Switchboard.Expression
