import Switchboard.Proofs.Expression.Soundness

/-! The parser accepts a text exactly when the grammar derives its tokens within the limit. -/
namespace Switchboard.Expression

/-- The tokens have a derivation that stands for `e` and nests to depth `d`. -/
def Derives (us : List Token) (e : Expr) (d : Nat) : Prop :=
  ∃ t : Derivation .expr, t.tokens = us ∧ t.value = e ∧ t.depth 0 = d

/-- The tree of tokens that an expression uses up. -/
theorem parseTokens_eq_ok {stop : Nat} {ts : List Located} (hne : ts ≠ []) {e : Expr} :
    parseTokens stop ts = .ok e ↔ bare (parseExpr stop 0 ts) = .ok (e, []) := by
  rcases ts with _ | ⟨t, us⟩
  · exact absurd rfl hne
  · rw [parseTokens.eq_2 _ _ hne]
    rcases parseExpr stop 0 (t :: us) with _ | ⟨a, _ | ⟨u, r⟩, _⟩ <;> simp

theorem parseTokens_of_error {stop : Nat} {ts : List Located} (hne : ts ≠ []) {x : ParseError}
    (h : bare (parseExpr stop 0 ts) = .error x) : parseTokens stop ts = .error x := by
  rcases ts with _ | ⟨t, us⟩
  · exact absurd rfl hne
  · rw [parseTokens.eq_2 _ _ hne]
    rcases hp : parseExpr stop 0 (t :: us) with _ | ⟨a, r, _⟩
    · rw [hp] at h
      cases h
      rfl
    · rw [hp] at h
      cases h

/-- What derives the tokens is read if it keeps within the limit, and is refused as too deep
otherwise. -/
theorem parseTokens_of_derives {stop d : Nat} {ts : List Located} (hne : ts ≠ []) {e : Expr}
    (h : Derives (ts.map (·.token)) e d) :
    parseTokens stop ts = if d ≤ maxDepth then .ok e else .error .tooDeep := by
  obtain ⟨t, hts, rfl, rfl⟩ := h
  have hread := @Derivation.completes _ t stop 0 ts [] (Nat.zero_le maxDepth) hts.symm trivial
  rw [List.append_nil] at hread
  by_cases hd : t.depth 0 ≤ maxDepth
  · rw [bounded_of_le hd] at hread
    rw [if_pos hd]
    exact (parseTokens_eq_ok hne).mpr hread
  · rw [bounded_of_lt (Nat.not_le.mp hd)] at hread
    rw [if_neg hd]
    exact parseTokens_of_error hne hread

theorem derives_of_parseTokens {stop : Nat} {ts : List Located} {e : Expr}
    (h : parseTokens stop ts = .ok e) : ∃ d ≤ maxDepth, Derives (ts.map (·.token)) e d := by
  have hne : ts ≠ [] := by
    rintro rfl
    cases h
  obtain ⟨t, us, hts, hu, rfl, hd⟩ := spans_expr ((parseTokens_eq_ok hne).mp h)
  rw [List.append_nil] at hts
  exact ⟨t.depth 0, hd, t, by rw [hts]; exact hu.symm, rfl, rfl⟩

theorem tokenize_cons {pos : Nat} {c : Char} {s rest : List Char} {t : Token}
    (hc : Text.isWhite c = false) (ht : scanToken pos c s = .ok (t, rest)) :
    tokenize pos (c :: s) =
      (tokenize (pos + Text.width (lexeme (c :: s) rest)) rest).map (⟨t, pos⟩ :: ·) := by
  rw [tokenize, if_neg (by simp [hc])]
  split
  · rename_i hx
    rw [ht] at hx
    cases hx
  · rename_i hx
    rw [ht] at hx
    cases hx
    simp only
    cases tokenize (pos + Text.width (lexeme (c :: s) rest)) rest <;> rfl

theorem parse_of_tokenize {s : String} {ts : List Located} (h : tokenize 0 s.toList = .ok ts) :
    parse s = parseTokens (Text.width s.toList) ts := by
  unfold parse
  simp only [h]

/-- A text is accepted, with the expression that its tokens derive, if and only if they derive it
within the limit; it is too deep if they derive it only beyond the limit; and it is refused if they
derive nothing. -/
theorem parse_accepts_grammar {s : String} {ts : List Located}
    (hs : tokenize 0 s.toList = .ok ts) (hne : ts ≠ []) :
    (∀ e, parse s = .ok e ↔ ∃ d ≤ maxDepth, Derives (ts.map (·.token)) e d) ∧
      (∀ e d, Derives (ts.map (·.token)) e d →
        (∀ d, Derives (ts.map (·.token)) e d → maxDepth < d) → parse s = .error .tooDeep) ∧
      ((∀ e d, ¬ Derives (ts.map (·.token)) e d) → ∃ x, parse s = .error x) := by
  rw [parse_of_tokenize hs]
  refine ⟨fun e => ⟨derives_of_parseTokens, ?_⟩, ?_, ?_⟩
  · rintro ⟨d, hd, h⟩
    rw [parseTokens_of_derives hne h, if_pos hd]
  · intro e d h hdeep
    rw [parseTokens_of_derives hne h, if_neg (Nat.not_le.mpr (hdeep d h))]
  · intro hnone
    rcases hp : parseTokens (Text.width s.toList) ts with x | e
    · exact ⟨x, rfl⟩
    · obtain ⟨d, -, h⟩ := derives_of_parseTokens hp
      exact absurd h (hnone e d)

theorem parse_accepts_grammar_index :
    tokenize 0 "$['k']".toList =
        .ok [⟨.dollar, 0⟩, ⟨.openBracket, 1⟩, ⟨.text "k", 2⟩, ⟨.closeBracket, 5⟩] ∧
      parse "$['k']" = .ok (.index .root (.literal (.str "k"))) := by
  have hs : tokenize 0 "$['k']".toList =
      .ok [⟨.dollar, 0⟩, ⟨.openBracket, 1⟩, ⟨.text "k", 2⟩, ⟨.closeBracket, 5⟩] := by
    have hlist : "$['k']".toList = ['$', '[', '\'', 'k', '\'', ']'] := by rfl
    rw [hlist, tokenize_cons (by decide) rfl, tokenize_cons (by decide) rfl,
      tokenize_cons (by decide) rfl, tokenize_cons (by decide) rfl, tokenize]
    rfl
  refine ⟨hs, ((parse_accepts_grammar hs (List.cons_ne_nil _ _)).1 _).mpr ⟨3, by decide, ?_⟩⟩
  exact ⟨.expr (.disjunction (.conjunction (.alone (.plain (.linked .root (.index
      (.expr (.disjunction (.conjunction (.alone (.plain (.linked (.text "k") .noLink)))
        .noConjunct) .noDisjunct)) .noLink)))) .noConjunct) .noDisjunct), rfl, rfl, rfl⟩

end Switchboard.Expression
