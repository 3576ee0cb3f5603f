import Switchboard.Proofs.Expression.Completeness

/-! What the parser reads, the grammar derives: the tokens read are those of a derivation that
stands for the result and keeps within the limit. The induction is on the number of tokens; what a
function leaves to another one at the same token is taken from the lemma of that one. -/
namespace Switchboard.Expression

/-- The tokens of `ts` before `rest` have a derivation within the limit, of which `p` holds. -/
def Spans (k : Nonterminal) (c : Nat) (ts rest : List Located) (p : k.Value → Prop) : Prop :=
  ∃ (t : Derivation k) (us : List Located),
    ts = us ++ rest ∧ Spells us t.tokens ∧ p t.value ∧ t.depth c ≤ maxDepth

theorem Spells.concat {us vs : List Located} {xs ys : List Token} (hu : Spells us xs)
    (hv : Spells vs ys) : Spells (us ++ vs) (xs ++ ys) := by
  rw [Spells, List.map_append, hu, hv]

theorem Spells.prepend {us : List Located} {xs : List Token} (t : Token) (p : Nat)
    (hu : Spells us xs) : Spells (⟨t, p⟩ :: us) (t :: xs) := by
  rw [Spells, List.map_cons, hu]

theorem eq_cons_of_colon {ts r : List Located} (h : skip (· matches .colon) ts = .ok r) :
    ∃ p, ts = ⟨.colon, p⟩ :: r := by
  obtain ⟨⟨u, p⟩, rfl, hu⟩ := skip_eq_ok h
  cases u <;> first | exact ⟨p, rfl⟩ | cases hu

theorem eq_cons_of_arrow {ts r : List Located} (h : skip (· matches .arrow) ts = .ok r) :
    ∃ p, ts = ⟨.arrow, p⟩ :: r := by
  obtain ⟨⟨u, p⟩, rfl, hu⟩ := skip_eq_ok h
  cases u <;> first | exact ⟨p, rfl⟩ | cases hu

theorem eq_cons_of_closeParen {ts r : List Located}
    (h : skip (· matches .closeParen) ts = .ok r) : ∃ p, ts = ⟨.closeParen, p⟩ :: r := by
  obtain ⟨⟨u, p⟩, rfl, hu⟩ := skip_eq_ok h
  cases u <;> first | exact ⟨p, rfl⟩ | cases hu

theorem eq_cons_of_closeBracket {ts r : List Located}
    (h : skip (· matches .closeBracket) ts = .ok r) : ∃ p, ts = ⟨.closeBracket, p⟩ :: r := by
  obtain ⟨⟨u, p⟩, rfl, hu⟩ := skip_eq_ok h
  cases u <;> first | exact ⟨p, rfl⟩ | cases hu

theorem eq_cons_of_closeBrace {ts r : List Located}
    (h : skip (· matches .closeBrace) ts = .ok r) : ∃ p, ts = ⟨.closeBrace, p⟩ :: r := by
  obtain ⟨⟨u, p⟩, rfl, hu⟩ := skip_eq_ok h
  cases u <;> first | exact ⟨p, rfl⟩ | cases hu

theorem eq_cons_of_comma {ts r : List Located} (h : after? (· matches .comma) ts = some r) :
    ∃ p, ts = ⟨.comma, p⟩ :: r := by
  obtain ⟨⟨u, p⟩, rfl, hu⟩ := after?_eq_some h
  cases u <;> first | exact ⟨p, rfl⟩ | cases hu

theorem eq_cons_of_close? {ts r : List Located}
    (h : after? (· matches .closeParen) ts = some r) : ∃ p, ts = ⟨.closeParen, p⟩ :: r := by
  obtain ⟨⟨u, p⟩, rfl, hu⟩ := after?_eq_some h
  cases u <;> first | exact ⟨p, rfl⟩ | cases hu

theorem eq_cons_of_comparison? {ts : List Located} {o : Operator}
    {r : { r : List Located // r.length < ts.length }} (h : comparison? ts = some (o, r)) :
    o.isComparison = true ∧ ∃ p, ts = ⟨.op o, p⟩ :: r.1 := by
  unfold comparison? at h
  split at h
  · split at h
    · cases h
      exact ⟨‹_›, _, rfl⟩
    · cases h
  · cases h

/-- Every name that stands alone is a primary. -/
theorem spans_name {c : Nat} (hc : c ≤ maxDepth) (name : String) (p : Nat) (rest : List Located) :
    Spans .primary c (⟨.name name, p⟩ :: rest) rest fun v => v = ofName name := by
  by_cases hr : name ∈ reserved
  · simp only [reserved, List.mem_cons, List.not_mem_nil, or_false] at hr
    rcases hr with rfl | rfl | rfl | rfl
    · exact ⟨.bool true, [⟨_, p⟩], rfl, rfl, rfl, hc⟩
    · exact ⟨.bool false, [⟨_, p⟩], rfl, rfl, rfl, hc⟩
    · exact ⟨.null, [⟨_, p⟩], rfl, rfl, rfl, hc⟩
    · exact ⟨.undefined, [⟨_, p⟩], rfl, rfl, rfl, hc⟩
  · exact ⟨.var name hr, [⟨_, p⟩], rfl, rfl, (Derivation.ofName_of_not_mem hr).symm, hc⟩

/-- A name that says a method is its name. -/
theorem Method.eq_name_of_ofName? {s : String} {m : Method} (h : Method.ofName? s = some m) :
    s = m.name := by
  unfold Method.ofName? at h
  repeat' split at h
  all_goals cases h
  all_goals assumption

theorem Visit.eq_name_of_ofName? {s : String} {m : Visit} (h : Visit.ofName? s = some m) :
    s = m.name := by
  unfold Visit.ofName? at h
  repeat' split at h
  all_goals cases h
  all_goals assumption

/-- Members begin with their closing brace or with a key. -/
theorem start_of_parseMembers {stop c : Nat} {ts r : List Located}
    {members : List (String × Expr)} (h : bare (parseMembers stop c ts) = .ok (members, r)) :
    (∃ p us, ts = ⟨.closeBrace, p⟩ :: us) ∨ ∃ (key : Key) (p : Nat) (us : List Located),
      ts = ⟨key.token, p⟩ :: us := by
  rw [parseMembers.eq_def] at h
  split at h
  · exact .inl ⟨_, _, rfl⟩
  · exact .inr ⟨.text _, _, _, rfl⟩
  · exact .inr ⟨.name _, _, _, rfl⟩
  · cases h

/-- A primary uses a token. -/
theorem cons_of_parsePrimary {stop c : Nat} {ts r : List Located} {e : Expr}
    (h : bare (parsePrimary stop c ts) = .ok (e, r)) : ∃ t us, ts = t :: us := by
  rcases ts with _ | ⟨t, us⟩
  · exact absurd (of_bare h) (Nat.not_lt_zero _)
  · exact ⟨t, us, rfl⟩

/-- The tokens after a key have a derivation as a member and those behind it. -/
def SpansMember (c : Nat) (key : String) (ts rest : List Located)
    (members : List (String × Expr)) : Prop :=
  ∃ (t : Key → Derivation .members) (us : List Located), ts = us ++ rest ∧
    (∀ k p, Spells (⟨k.token, p⟩ :: us) (t k).tokens) ∧
    (∀ k : Key, k.string = key → (t k).value = members) ∧ ∀ k, (t k).depth c ≤ maxDepth

/-- The tokens after a name and an opening parenthesis have a derivation as a call. -/
def SpansCall (c : Nat) (name : String) (ts rest : List Located) (target e : Expr) : Prop :=
  ∃ (t : Derivation .call) (us : List Located), ts = us ++ rest ∧
    (∀ p q, Spells (⟨.name name, p⟩ :: ⟨.openParen, q⟩ :: us) t.tokens) ∧
    t.value target = e ∧ t.depth c ≤ maxDepth

/-- What the parser reads from fewer than `n` tokens, the grammar derives. -/
structure SpansBelow (n : Nat) : Prop where
  expr : ∀ {stop c : Nat} {ts rest : List Located} {e : Expr}, ts.length < n →
    bare (parseExpr stop c ts) = .ok (e, rest) → Spans .expr c ts rest fun v => v = e
  disjuncts : ∀ {stop c : Nat} {ts rest : List Located} {lhs e : Expr}, ts.length < n →
    c ≤ maxDepth → bare (parseOrTail stop c lhs ts) = .ok (e, rest) →
    Spans .disjuncts c ts rest fun f => f lhs = e
  conjunction : ∀ {stop c : Nat} {ts rest : List Located} {e : Expr}, ts.length < n →
    c ≤ maxDepth → bare (parseAnd stop c ts) = .ok (e, rest) →
    Spans .conjunction c ts rest fun v => v = e
  conjuncts : ∀ {stop c : Nat} {ts rest : List Located} {lhs e : Expr}, ts.length < n →
    c ≤ maxDepth → bare (parseAndTail stop c lhs ts) = .ok (e, rest) →
    Spans .conjuncts c ts rest fun f => f lhs = e
  comparison : ∀ {stop c : Nat} {ts rest : List Located} {e : Expr}, ts.length < n →
    c ≤ maxDepth → bare (parseComparison stop c ts) = .ok (e, rest) →
    Spans .comparison c ts rest fun v => v = e
  unary : ∀ {stop c : Nat} {ts rest : List Located} {e : Expr}, ts.length < n →
    c ≤ maxDepth → bare (parseUnary stop c ts) = .ok (e, rest) →
    Spans .unary c ts rest fun v => v = e
  links : ∀ {stop c : Nat} {ts rest : List Located} {target e : Expr}, ts.length < n →
    c ≤ maxDepth → bare (parseLinks stop c target ts) = .ok (e, rest) →
    Spans .links c ts rest fun f => f target = e
  items : ∀ {stop c : Nat} {ts rest : List Located} {items : List Expr}, ts.length < n →
    c ≤ maxDepth → bare (parseItems stop c ts) = .ok (items, rest) →
    Spans .items c ts rest fun v => v = items
  members : ∀ {stop c : Nat} {ts rest : List Located} {members : List (String × Expr)},
    ts.length < n → c ≤ maxDepth → bare (parseMembers stop c ts) = .ok (members, rest) →
    Spans .members c ts rest fun v => v = members
  member : ∀ {stop c : Nat} {key : String} {ts rest : List Located}
    {members : List (String × Expr)}, ts.length < n → c ≤ maxDepth →
    bare (parseMember stop c key ts) = .ok (members, rest) → SpansMember c key ts rest members
  call : ∀ {stop c : Nat} {ts rest : List Located} {target e : Expr} {name : String} {pos : Nat},
    ts.length < n → c ≤ maxDepth →
    bare (parseCall stop c target name pos ts) = .ok (e, rest) → SpansCall c name ts rest target e

section Steps
variable {n stop c : Nat} {ts rest : List Located} {e : Expr} (ih : SpansBelow n)
  (hn : ts.length ≤ n)
include ih hn

theorem spans_parsePrimary (hc : c ≤ maxDepth) (h : bare (parsePrimary stop c ts) = .ok (e, rest)) :
    Spans .primary c ts rest fun v => v = e := by
  obtain ⟨⟨u, p⟩, us, hts⟩ := cons_of_parsePrimary h
  rw [hts] at h ⊢
  have hlen : ts.length = us.length + 1 := by rw [hts, List.length_cons]
  cases u with
  | dollar =>
    rw [parsePrimary] at h
    cases h
    exact ⟨.root, [⟨_, p⟩], rfl, rfl, rfl, hc⟩
  | number x =>
    rw [parsePrimary] at h
    cases h
    exact ⟨.number x, [⟨_, p⟩], rfl, rfl, rfl, hc⟩
  | text s =>
    rw [parsePrimary] at h
    cases h
    exact ⟨.text s, [⟨_, p⟩], rfl, rfl, rfl, hc⟩
  | name n =>
    rw [parsePrimary] at h
    cases h
    exact spans_name hc n p _
  | openParen =>
    rw [bare_parsePrimary_group] at h
    obtain ⟨⟨a, r⟩, ha, h⟩ := Except.bind_eq_ok.mp h
    obtain ⟨s, hs, h⟩ := Except.bind_eq_ok.mp h
    cases h
    obtain ⟨q, hr⟩ := eq_cons_of_closeParen hs
    obtain ⟨t, xs, hxs, hx, rfl, hd⟩ := ih.expr (by omega) ha
    exact ⟨.group t, ⟨.openParen, p⟩ :: (xs ++ [⟨.closeParen, q⟩]),
      by rw [hxs, hr, List.cons_append, List.append_assoc, List.singleton_append],
      (hx.concat rfl).prepend _ p, rfl, hd⟩
  | openBrace =>
    rw [bare_parsePrimary_object] at h
    obtain ⟨⟨ms, r⟩, ha, h⟩ := Except.bind_eq_ok.mp h
    obtain ⟨s, hs, h⟩ := Except.bind_eq_ok.mp h
    cases h
    obtain ⟨q, hr⟩ := eq_cons_of_closeBrace hs
    obtain ⟨t, xs, hxs, hx, rfl, hd⟩ := ih.members (by omega) hc ha
    exact ⟨.object t, ⟨.openBrace, p⟩ :: (xs ++ [⟨.closeBrace, q⟩]),
      by rw [hxs, hr, List.cons_append, List.append_assoc, List.singleton_append],
      (hx.concat rfl).prepend _ p, rfl, hd⟩
  | openBracket =>
    rw [bare_parsePrimary_array] at h
    obtain ⟨⟨items, r⟩, ha, h⟩ := Except.bind_eq_ok.mp h
    obtain ⟨s, hs, h⟩ := Except.bind_eq_ok.mp h
    cases h
    obtain ⟨q, hr⟩ := eq_cons_of_closeBracket hs
    obtain ⟨t, xs, hxs, hx, rfl, hd⟩ := ih.items (by omega) hc ha
    exact ⟨.array t, ⟨.openBracket, p⟩ :: (xs ++ [⟨.closeBracket, q⟩]),
      by rw [hxs, hr, List.cons_append, List.append_assoc, List.singleton_append],
      (hx.concat rfl).prepend _ p, rfl, hd⟩
  | _ =>
    rw [parsePrimary.eq_def] at h
    cases h

theorem spans_parsePostfix (hc : c ≤ maxDepth) (h : bare (parsePostfix stop c ts) = .ok (e, rest)) :
    Spans .linked c ts rest fun v => v = e := by
  rw [bare_parsePostfix] at h
  obtain ⟨⟨a, r⟩, ha, h⟩ := Except.bind_eq_ok.mp h
  have hr : r.length < ts.length := of_bare ha
  obtain ⟨t, us, hts, hu, rfl, hd⟩ := spans_parsePrimary ih hn hc ha
  obtain ⟨t', vs, rfl, hv, hval, hd'⟩ := ih.links (by omega) hc h
  exact ⟨.linked t t', us ++ vs, by rw [hts, List.append_assoc], hu.concat hv, hval,
    Nat.max_le.mpr ⟨hd, hd'⟩⟩

theorem spans_parseUnary (hc : c ≤ maxDepth) (h : bare (parseUnary stop c ts) = .ok (e, rest)) :
    Spans .unary c ts rest fun v => v = e := by
  by_cases hnot : ∃ p us, ts = ⟨.not, p⟩ :: us
  · obtain ⟨p, us, hts⟩ := hnot
    rw [hts, bare_parseUnary_not] at h
    split at h
    · cases h
    · obtain ⟨⟨a, r⟩, ha, h⟩ := Except.bind_eq_ok.mp h
      cases h
      have hlen : ts.length = us.length + 1 := by rw [hts, List.length_cons]
      obtain ⟨t, ws, hws, hw, rfl, hd⟩ := ih.unary (by omega) (by omega) ha
      exact ⟨.not t, ⟨.not, p⟩ :: ws, by rw [hts, hws, List.cons_append], hw.prepend _ p, rfl, hd⟩
  · rw [bare_parseUnary_of_ne fun p us hts => hnot ⟨p, us, hts⟩] at h
    obtain ⟨t, us, hts, hu, hv, hd⟩ := spans_parsePostfix ih hn hc h
    exact ⟨.plain t, us, hts, hu, hv, hd⟩

theorem spans_parseComparison (hc : c ≤ maxDepth)
    (h : bare (parseComparison stop c ts) = .ok (e, rest)) :
    Spans .comparison c ts rest fun v => v = e := by
  rw [bare_parseComparison] at h
  obtain ⟨⟨a, r⟩, ha, h⟩ := Except.bind_eq_ok.mp h
  have hr : r.length < ts.length := of_bare ha
  obtain ⟨t, us, hts, hu, rfl, hd⟩ := spans_parseUnary ih hn hc ha
  rcases hq : comparison? r with _ | ⟨o, q, hlt⟩
  · simp only [hq] at h
    cases h
    exact ⟨.alone t, us, hts, hu, rfl, hd⟩
  · simp only [hq] at h
    obtain ⟨⟨b, s⟩, hb, h⟩ := Except.bind_eq_ok.mp h
    cases h
    obtain ⟨t', vs, hvs, hv, rfl, hd'⟩ := ih.unary (by omega) hc hb
    obtain ⟨ho, p, hrq⟩ : o.isComparison = true ∧ ∃ p, r = ⟨.op o, p⟩ :: q :=
      eq_cons_of_comparison? hq
    exact ⟨.compare t o ho t', us ++ ⟨.op o, p⟩ :: vs,
      by rw [hts, hrq, hvs, List.append_assoc, List.cons_append], hu.concat (hv.prepend _ p), rfl,
      Nat.max_le.mpr ⟨hd, hd'⟩⟩

theorem spans_parseAndTail {lhs : Expr} (hc : c ≤ maxDepth)
    (h : bare (parseAndTail stop c lhs ts) = .ok (e, rest)) :
    Spans .conjuncts c ts rest fun f => f lhs = e := by
  by_cases hand : ∃ p us, ts = ⟨.op .and, p⟩ :: us
  · obtain ⟨p, us, hts⟩ := hand
    rw [hts, bare_parseAndTail_and] at h
    split at h
    · cases h
    · obtain ⟨⟨a, r⟩, ha, h⟩ := Except.bind_eq_ok.mp h
      have hr : r.length < us.length := of_bare ha
      have hlen : ts.length = us.length + 1 := by rw [hts, List.length_cons]
      obtain ⟨t, ws, hws, hw, rfl, hd⟩ := ih.comparison (by omega) (by omega) ha
      obtain ⟨t', vs, rfl, hv, hval, hd'⟩ := ih.conjuncts (by omega) (by omega) h
      exact ⟨.conjunct t t', ⟨.op .and, p⟩ :: (ws ++ vs),
        by rw [hts, hws, List.cons_append, List.append_assoc], (hw.concat hv).prepend _ p, hval,
        Nat.max_le.mpr ⟨hd, hd'⟩⟩
  · rw [bare_parseAndTail_of_ne lhs fun p us hts => hand ⟨p, us, hts⟩] at h
    cases h
    exact ⟨.noConjunct, [], rfl, rfl, rfl, hc⟩

theorem spans_parseAnd (hc : c ≤ maxDepth) (h : bare (parseAnd stop c ts) = .ok (e, rest)) :
    Spans .conjunction c ts rest fun v => v = e := by
  rw [bare_parseAnd] at h
  obtain ⟨⟨a, r⟩, ha, h⟩ := Except.bind_eq_ok.mp h
  have hr : r.length < ts.length := of_bare ha
  obtain ⟨t, us, hts, hu, rfl, hd⟩ := spans_parseComparison ih hn hc ha
  obtain ⟨t', vs, rfl, hv, hval, hd'⟩ := ih.conjuncts (by omega) hc h
  exact ⟨.conjunction t t', us ++ vs, by rw [hts, List.append_assoc], hu.concat hv, hval,
    Nat.max_le.mpr ⟨hd, hd'⟩⟩

theorem spans_parseOrTail {lhs : Expr} (hc : c ≤ maxDepth)
    (h : bare (parseOrTail stop c lhs ts) = .ok (e, rest)) :
    Spans .disjuncts c ts rest fun f => f lhs = e := by
  by_cases hor : ∃ p us, ts = ⟨.op .or, p⟩ :: us
  · obtain ⟨p, us, hts⟩ := hor
    rw [hts, bare_parseOrTail_or] at h
    split at h
    · cases h
    · obtain ⟨⟨a, r⟩, ha, h⟩ := Except.bind_eq_ok.mp h
      have hr : r.length < us.length := of_bare ha
      have hlen : ts.length = us.length + 1 := by rw [hts, List.length_cons]
      obtain ⟨t, ws, hws, hw, rfl, hd⟩ := ih.conjunction (by omega) (by omega) ha
      obtain ⟨t', vs, rfl, hv, hval, hd'⟩ := ih.disjuncts (by omega) (by omega) h
      exact ⟨.disjunct t t', ⟨.op .or, p⟩ :: (ws ++ vs),
        by rw [hts, hws, List.cons_append, List.append_assoc], (hw.concat hv).prepend _ p, hval,
        Nat.max_le.mpr ⟨hd, hd'⟩⟩
  · rw [bare_parseOrTail_of_ne lhs fun p us hts => hor ⟨p, us, hts⟩] at h
    cases h
    exact ⟨.noDisjunct, [], rfl, rfl, rfl, hc⟩

theorem spans_parseOr (hc : c ≤ maxDepth) (h : bare (parseOr stop c ts) = .ok (e, rest)) :
    Spans .disjunction c ts rest fun v => v = e := by
  rw [bare_parseOr] at h
  obtain ⟨⟨a, r⟩, ha, h⟩ := Except.bind_eq_ok.mp h
  have hr : r.length < ts.length := of_bare ha
  obtain ⟨t, us, hts, hu, rfl, hd⟩ := spans_parseAnd ih hn hc ha
  obtain ⟨t', vs, rfl, hv, hval, hd'⟩ := ih.disjuncts (by omega) hc h
  exact ⟨.disjunction t t', us ++ vs, by rw [hts, List.append_assoc], hu.concat hv, hval,
    Nat.max_le.mpr ⟨hd, hd'⟩⟩

theorem spans_parseExpr (h : bare (parseExpr stop c ts) = .ok (e, rest)) :
    Spans .expr c ts rest fun v => v = e := by
  rw [bare_parseExpr] at h
  split at h
  · cases h
  · obtain ⟨t, us, hts, hu, hv, hd⟩ := spans_parseOr ih hn (by omega) h
    exact ⟨.expr t, us, hts, hu, hv, hd⟩

theorem spans_parseLinks {target : Expr} (hc : c ≤ maxDepth)
    (h : bare (parseLinks stop c target ts) = .ok (e, rest)) :
    Spans .links c ts rest fun f => f target = e := by
  by_cases hdot : ∃ p us, ts = ⟨.dot, p⟩ :: us
  · obtain ⟨p, us, hts⟩ := hdot
    rw [hts] at h
    obtain ⟨name, q, vs, hus⟩ := name_of_parseLinks_dot h
    have hlen : ts.length = vs.length + 2 := by simp [hts, hus]
    by_cases hopen : ∃ pos ws, vs = ⟨.openParen, pos⟩ :: ws
    · obtain ⟨pos, ws, hvs⟩ := hopen
      rw [hus, hvs, bare_parseLinks_call] at h
      split at h
      · cases h
      · obtain ⟨⟨a, r⟩, ha, h⟩ := Except.bind_eq_ok.mp h
        have hr : r.length < ws.length := of_bare ha
        have hlen' : vs.length = ws.length + 1 := by rw [hvs, List.length_cons]
        obtain ⟨t, xs, hxs, hx, hval, hd⟩ := ih.call (by omega) (by omega) ha
        obtain ⟨t', ys, hys, hy, hval', hd'⟩ := ih.links (by omega) (by omega) h
        have hspell := (hx q pos).concat hy
        refine ⟨.call t t', ⟨.dot, p⟩ :: ⟨.name name, q⟩ :: ⟨.openParen, pos⟩ :: (xs ++ ys), ?_,
          hspell.prepend _ p, ?_, Nat.max_le.mpr ⟨hd, hd'⟩⟩
        · rw [hts, hus, hvs, hxs, hys]
          simp only [List.cons_append, List.append_assoc]
        · show t'.value (t.value target) = e
          rw [hval, hval']
    · rw [hus, bare_parseLinks_property target name p q fun pos ws hvs => hopen ⟨pos, ws, hvs⟩] at h
      split at h
      · cases h
      · obtain ⟨t, xs, hxs, hx, hval, hd⟩ := ih.links (by omega) (by omega) h
        exact ⟨.property name t, ⟨.dot, p⟩ :: ⟨.name name, q⟩ :: xs,
          by rw [hts, hus, hxs, List.cons_append, List.cons_append],
          (hx.prepend _ q).prepend _ p, hval, hd⟩
  · by_cases hopen : ∃ p us, ts = ⟨.openBracket, p⟩ :: us
    · obtain ⟨p, us, hts⟩ := hopen
      rw [hts, bare_parseLinks_index] at h
      split at h
      · cases h
      · obtain ⟨⟨key, r⟩, ha, h⟩ := Except.bind_eq_ok.mp h
        obtain ⟨s, hs, h⟩ := Except.bind_eq_ok.mp h
        have hr : r.length < us.length := of_bare ha
        have hlen : ts.length = us.length + 1 := by rw [hts, List.length_cons]
        obtain ⟨q, hrs⟩ := eq_cons_of_closeBracket hs
        have hlen' : r.length = s.length + 1 := by rw [hrs, List.length_cons]
        obtain ⟨t, xs, hxs, hx, rfl, hd⟩ := ih.expr (by omega) ha
        obtain ⟨t', ys, hys, hy, hval', hd'⟩ := ih.links (by omega) (by omega) h
        refine ⟨.index t t', ⟨.openBracket, p⟩ :: (xs ++ ⟨.closeBracket, q⟩ :: ys), ?_,
          (hx.concat (hy.prepend _ q)).prepend _ p, hval', Nat.max_le.mpr ⟨hd, hd'⟩⟩
        rw [hts, hxs, hrs, hys]
        simp only [List.cons_append, List.append_assoc]
    · rw [bare_parseLinks_of_ne target (fun p us hts => hdot ⟨p, us, hts⟩)
        (fun p us hts => hopen ⟨p, us, hts⟩)] at h
      cases h
      exact ⟨.noLink, [], rfl, rfl, rfl, hc⟩

theorem spans_parseItems {items : List Expr} (hc : c ≤ maxDepth)
    (h : bare (parseItems stop c ts) = .ok (items, rest)) :
    Spans .items c ts rest fun v => v = items := by
  by_cases hclose : ∃ p us, ts = ⟨.closeBracket, p⟩ :: us
  · obtain ⟨p, us, hts⟩ := hclose
    rw [hts, bare_parseItems_close] at h
    cases h
    exact ⟨.noItem, [], by rw [hts, List.nil_append], rfl, rfl, hc⟩
  · rw [bare_parseItems_of_ne fun p us hts => hclose ⟨p, us, hts⟩] at h
    obtain ⟨⟨a, r⟩, ha, h⟩ := Except.bind_eq_ok.mp h
    have hr : r.length < ts.length := of_bare ha
    obtain ⟨t, xs, hxs, hx, rfl, hd⟩ := spans_parseExpr ih hn ha
    simp only at h
    split at h
    · rename_i hcomma
      cases h
      exact ⟨.lastItem t, xs, hxs, hx, rfl, hd⟩
    · rename_i s hcomma
      obtain ⟨⟨more, o⟩, hm, h⟩ := Except.bind_eq_ok.mp h
      cases h
      obtain ⟨q, hrs⟩ := eq_cons_of_comma hcomma
      have hlen : r.length = s.length + 1 := by rw [hrs, List.length_cons]
      obtain ⟨t', ys, hys, hy, rfl, hd'⟩ := ih.items (by omega) hc hm
      exact ⟨.item t t', xs ++ ⟨.comma, q⟩ :: ys,
        by rw [hxs, hrs, hys, List.append_assoc, List.cons_append], hx.concat (hy.prepend _ q),
        rfl, Nat.max_le.mpr ⟨hd, hd'⟩⟩

theorem spans_parseMember {key : String} {members : List (String × Expr)} (hc : c ≤ maxDepth)
    (h : bare (parseMember stop c key ts) = .ok (members, rest)) :
    SpansMember c key ts rest members := by
  rw [bare_parseMember] at h
  obtain ⟨r, hr, h⟩ := Except.bind_eq_ok.mp h
  obtain ⟨⟨a, s⟩, ha, h⟩ := Except.bind_eq_ok.mp h
  obtain ⟨p, hts⟩ := eq_cons_of_colon hr
  have hlen : ts.length = r.length + 1 := by rw [hts, List.length_cons]
  have hs : s.length < r.length := of_bare ha
  obtain ⟨t, xs, hxs, hx, rfl, hd⟩ := ih.expr (by omega) ha
  simp only at h
  split at h
  · rename_i hcomma
    cases h
    exact ⟨fun k => .lastMember k t, ⟨.colon, p⟩ :: xs, by rw [hts, hxs, List.cons_append],
      fun k q => (hx.prepend _ p).prepend _ q, fun k hk => by rw [← hk]; rfl, fun _ => hd⟩
  · rename_i o hcomma
    obtain ⟨⟨more, n⟩, hm, h⟩ := Except.bind_eq_ok.mp h
    cases h
    obtain ⟨q, hso⟩ := eq_cons_of_comma hcomma
    have hlen' : s.length = o.length + 1 := by rw [hso, List.length_cons]
    obtain ⟨t', ys, hys, hy, rfl, hd'⟩ := ih.members (by omega) hc hm
    exact ⟨fun k => .member k t t', ⟨.colon, p⟩ :: (xs ++ ⟨.comma, q⟩ :: ys),
      by rw [hts, hxs, hso, hys, List.cons_append, List.append_assoc, List.cons_append],
      fun k q' => ((hx.concat (hy.prepend _ q)).prepend _ p).prepend _ q',
      fun k hk => by rw [← hk]; rfl, fun _ => Nat.max_le.mpr ⟨hd, hd'⟩⟩

theorem spans_parseMembers {members : List (String × Expr)} (hc : c ≤ maxDepth)
    (h : bare (parseMembers stop c ts) = .ok (members, rest)) :
    Spans .members c ts rest fun v => v = members := by
  rcases start_of_parseMembers h with ⟨p, us, hts⟩ | ⟨key, p, us, hts⟩
  · rw [hts, bare_parseMembers_close] at h
    cases h
    exact ⟨.noMember, [], by rw [hts, List.nil_append], rfl, rfl, hc⟩
  · rw [hts, Derivation.bare_parseMembers_key] at h
    have hlen : ts.length = us.length + 1 := by rw [hts, List.length_cons]
    obtain ⟨t, xs, hxs, hx, hval, hd⟩ := ih.member (by omega) hc h
    exact ⟨t key, ⟨key.token, p⟩ :: xs, by rw [hts, hxs, List.cons_append], hx key p, hval key rfl,
      hd key⟩

theorem spans_parseSlice {target : Expr} (h : bare (parseSlice stop c target ts) = .ok (e, rest)) :
    SpansCall c "slice" ts rest target e := by
  rw [bare_parseSlice] at h
  obtain ⟨⟨a, r⟩, ha, h⟩ := Except.bind_eq_ok.mp h
  have hr : r.length < ts.length := of_bare ha
  obtain ⟨t, xs, hxs, hx, rfl, hd⟩ := spans_parseExpr ih hn ha
  simp only at h
  split at h
  · rename_i hcomma
    obtain ⟨o, ho, h⟩ := Except.bind_eq_ok.mp h
    cases h
    obtain ⟨q, hro⟩ := eq_cons_of_closeParen ho
    exact ⟨.slice t, xs ++ [⟨.closeParen, q⟩],
      by rw [hxs, hro, List.append_assoc, List.singleton_append],
      fun p o => ((hx.concat rfl).prepend _ o).prepend _ p, rfl, hd⟩
  · rename_i s hcomma
    obtain ⟨⟨b, o⟩, hb, h⟩ := Except.bind_eq_ok.mp h
    obtain ⟨n, hn, h⟩ := Except.bind_eq_ok.mp h
    obtain ⟨q, hrs⟩ := eq_cons_of_comma hcomma
    obtain ⟨q', hon⟩ : ∃ q, o = ⟨.closeParen, q⟩ :: n := eq_cons_of_closeParen hn
    have hlen : r.length = s.length + 1 := by rw [hrs, List.length_cons]
    obtain ⟨t', ys, hys, hy, rfl, hd'⟩ := ih.expr (by omega) hb
    cases h
    refine ⟨.sliceTo t t', xs ++ ⟨.comma, q⟩ :: (ys ++ [⟨.closeParen, q'⟩]), ?_,
      fun p o => ((hx.concat ((hy.concat rfl).prepend _ q)).prepend _ o).prepend _ p, rfl,
      Nat.max_le.mpr ⟨hd, hd'⟩⟩
    rw [hxs, hrs, hys, hon]
    simp only [List.append_assoc, List.cons_append, List.nil_append]

theorem spans_parseLambda {f : String × Expr} (h : bare (parseLambda stop c ts) = .ok (f, rest)) :
    Spans .lambda c ts rest fun v => v = f := by
  rcases start_of_parseLambda h with ⟨param, p, q, us, hts⟩ | ⟨param, p, q, o, us, hts⟩
  · rw [hts, bare_parseLambda_name] at h
    obtain ⟨⟨body, r⟩, hb, h⟩ := Except.bind_eq_ok.mp h
    cases h
    have hlen : ts.length = us.length + 2 := by simp only [hts, List.length_cons]
    obtain ⟨t, xs, hxs, hx, rfl, hd⟩ := ih.expr (by omega) hb
    exact ⟨.lambda param t, ⟨.name param, p⟩ :: ⟨.arrow, q⟩ :: xs,
      by rw [hts, hxs, List.cons_append, List.cons_append], (hx.prepend _ q).prepend _ p, rfl, hd⟩
  · rw [hts, bare_parseLambda_group] at h
    obtain ⟨r, hr, h⟩ := Except.bind_eq_ok.mp h
    obtain ⟨⟨body, s⟩, hb, h⟩ := Except.bind_eq_ok.mp h
    cases h
    obtain ⟨n, hus⟩ := eq_cons_of_arrow hr
    have hlen : ts.length = r.length + 4 := by simp only [hts, hus, List.length_cons]
    obtain ⟨t, xs, hxs, hx, rfl, hd⟩ := ih.expr (by omega) hb
    exact ⟨.lambdaGroup param t,
      ⟨.openParen, p⟩ :: ⟨.name param, q⟩ :: ⟨.closeParen, o⟩ :: ⟨.arrow, n⟩ :: xs,
      by rw [hts, hus, hxs]; rfl, (((hx.prepend _ n).prepend _ o).prepend _ q).prepend _ p, rfl, hd⟩

theorem spans_parseCall {target : Expr} {name : String} {pos : Nat} (hc : c ≤ maxDepth)
    (h : bare (parseCall stop c target name pos ts) = .ok (e, rest)) :
    SpansCall c name ts rest target e := by
  rcases hv : Visit.ofName? name with _ | m
  · rcases hm : Method.ofName? name with _ | m
    · rw [bare_parseCall_other target pos ts hv hm] at h
      split at h
      · rename_i hname
        rw [hname]
        exact spans_parseSlice ih hn h
      · cases h
    · rw [bare_parseCall_method target pos ts hv hm] at h
      obtain ⟨r, hr, h⟩ := Except.bind_eq_ok.mp h
      cases h
      obtain ⟨q, hts⟩ := eq_cons_of_closeParen hr
      rw [Method.eq_name_of_ofName? hm]
      exact ⟨.method m, [⟨.closeParen, q⟩], hts, fun _ _ => rfl, rfl, hc⟩
  · rw [Visit.eq_name_of_ofName? hv] at h ⊢
    by_cases hclose : m = .sort ∧ ∃ r, after? (· matches .closeParen) ts = some r
    · obtain ⟨rfl, r, hr⟩ := hclose
      obtain ⟨q, hts⟩ := eq_cons_of_close? hr
      rw [hts, Visit.name, bare_parseCall_sort] at h
      cases h
      exact ⟨.method .sort, [⟨.closeParen, q⟩], hts, fun _ _ => rfl, rfl, hc⟩
    · rw [bare_parseCall_visit target pos (Visit.ofName?_name m) fun hsort =>
        Option.eq_none_iff_forall_ne_some.mpr fun r hr => hclose ⟨hsort, r, hr⟩] at h
      obtain ⟨⟨f, r⟩, hf, h⟩ := Except.bind_eq_ok.mp h
      obtain ⟨s, hs, h⟩ := Except.bind_eq_ok.mp h
      cases h
      obtain ⟨q, hrs⟩ := eq_cons_of_closeParen hs
      obtain ⟨t, xs, hxs, hx, rfl, hd⟩ := spans_parseLambda ih hn hf
      exact ⟨.visit m t, xs ++ [⟨.closeParen, q⟩],
        by rw [hxs, hrs, List.append_assoc, List.singleton_append],
        fun p o => ((hx.concat rfl).prepend _ o).prepend _ p, rfl, hd⟩

end Steps

/-- The shorter inputs come first: each function is sound on `n` tokens where all are on fewer. -/
theorem spansBelow (n : Nat) : SpansBelow n := by
  induction n with
  | zero => constructor <;> exact fun hn => absurd hn (Nat.not_lt_zero _)
  | succ n ih =>
    exact
      { expr := fun hn => spans_parseExpr ih (Nat.le_of_lt_succ hn)
        disjuncts := fun hn => spans_parseOrTail ih (Nat.le_of_lt_succ hn)
        conjunction := fun hn => spans_parseAnd ih (Nat.le_of_lt_succ hn)
        conjuncts := fun hn => spans_parseAndTail ih (Nat.le_of_lt_succ hn)
        comparison := fun hn => spans_parseComparison ih (Nat.le_of_lt_succ hn)
        unary := fun hn => spans_parseUnary ih (Nat.le_of_lt_succ hn)
        links := fun hn => spans_parseLinks ih (Nat.le_of_lt_succ hn)
        items := fun hn => spans_parseItems ih (Nat.le_of_lt_succ hn)
        members := fun hn => spans_parseMembers ih (Nat.le_of_lt_succ hn)
        member := fun hn => spans_parseMember ih (Nat.le_of_lt_succ hn)
        call := fun hn => spans_parseCall ih (Nat.le_of_lt_succ hn) }

/-- What the parser reads as an expression, the grammar derives. -/
theorem spans_expr {stop c : Nat} {ts rest : List Located} {e : Expr}
    (h : bare (parseExpr stop c ts) = .ok (e, rest)) : Spans .expr c ts rest fun v => v = e :=
  (spansBelow (ts.length + 1)).expr (Nat.lt_succ_self ts.length) h

end Switchboard.Expression
