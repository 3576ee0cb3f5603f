import Switchboard.Expression.Parser
import Switchboard.Proofs.Except

/-! The steps of the parser as equations between plain results. The parser hands on, with the tokens
that are left, the proof that they are fewer; `bare` drops that proof. -/
namespace Switchboard.Expression

/-- A result without the proof about the tokens that are left. -/
def bare {α : Type} {p : List Located → Prop} :
    Except ParseError (α × { r : List Located // p r }) → Except ParseError (α × List Located)
  | .error e => .error e
  | .ok (a, ⟨r, _⟩) => .ok (a, r)

@[simp] theorem bare_ok {α : Type} {p : List Located → Prop} (a : α) (r : List Located) (h : p r) :
    bare (.ok (a, ⟨r, h⟩)) = .ok (a, r) := rfl

@[simp] theorem bare_error {α : Type} {p : List Located → Prop} (e : ParseError) :
    bare (.error e : Except ParseError (α × { r : List Located // p r })) = .error e := rfl

/-- What was known of the tokens that are left. -/
theorem of_bare {α : Type} {p : List Located → Prop}
    {x : Except ParseError (α × { r : List Located // p r })} {a : α} {r : List Located}
    (h : bare x = .ok (a, r)) : p r := by
  rcases x with _ | ⟨b, q, hq⟩
  · cases h
  · cases h
    exact hq

/-- What follows a token that must stand next. -/
def skip (wanted : Token → Bool) : List Located → Except ParseError (List Located)
  | [] => .error .unexpectedEnd
  | t :: r => if wanted t.token then .ok r else .error (.unexpectedToken t.token t.pos)

theorem expect_eq_skip (wanted : Token → Bool) (ts : List Located) :
    (expect wanted ts).map (·.1) = skip wanted ts := by
  rcases ts with _ | ⟨t, r⟩
  · rfl
  · unfold expect next? skip
    by_cases h : wanted t.token = true <;> simp [h, Except.map, unexpected]

theorem skip_eq_ok {wanted : Token → Bool} {ts r : List Located} (h : skip wanted ts = .ok r) :
    ∃ t, ts = t :: r ∧ wanted t.token = true := by
  rcases ts with _ | ⟨t, q⟩
  · cases h
  · by_cases hw : wanted t.token = true
    · have hq : q = r := by simpa [skip, hw] using h
      exact ⟨t, by rw [hq], hw⟩
    · simp [skip, hw] at h

theorem skip_of_expect_ok {wanted : Token → Bool} {ts : List Located}
    {r : { r : List Located // r.length < ts.length }} (h : expect wanted ts = .ok r) :
    skip wanted ts = .ok r.1 := by
  rw [← expect_eq_skip, h]
  rfl

theorem skip_of_expect_error {wanted : Token → Bool} {ts : List Located} {e : ParseError}
    (h : expect wanted ts = .error e) : skip wanted ts = .error e := by
  rw [← expect_eq_skip, h]
  rfl

/-- What follows a token that may stand next. -/
def after? (wanted : Token → Bool) : List Located → Option (List Located)
  | [] => none
  | t :: r => if wanted t.token then some r else none

theorem next?_eq_after? (wanted : Token → Bool) (ts : List Located) :
    (next? wanted ts).map (·.1) = after? wanted ts := by
  rcases ts with _ | ⟨t, r⟩
  · rfl
  · by_cases h : wanted t.token = true <;> simp [next?, after?, h]

theorem after?_of_next?_some {wanted : Token → Bool} {ts : List Located}
    {r : { r : List Located // r.length < ts.length }} (h : next? wanted ts = some r) :
    after? wanted ts = some r.1 := by
  rw [← next?_eq_after?, h]
  rfl

theorem after?_of_next?_none {wanted : Token → Bool} {ts : List Located}
    (h : next? wanted ts = none) : after? wanted ts = none := by
  rw [← next?_eq_after?, h]
  rfl

theorem after?_eq_some {wanted : Token → Bool} {ts r : List Located}
    (h : after? wanted ts = some r) : ∃ t, ts = t :: r ∧ wanted t.token = true := by
  rcases ts with _ | ⟨t, q⟩
  · cases h
  · by_cases hw : wanted t.token = true
    · have hq : q = r := by simpa [after?, hw] using h
      exact ⟨t, by rw [hq], hw⟩
    · simp [after?, hw] at h

variable {stop depth : Nat}

theorem bare_parseExpr (ts : List Located) :
    bare (parseExpr stop depth ts) =
      if maxDepth ≤ depth then .error .tooDeep else bare (parseOr stop (depth + 1) ts) := by
  rw [parseExpr]
  split <;> rfl

theorem bare_parseOr (ts : List Located) :
    bare (parseOr stop depth ts) = (do
      let (lhs, r) ← bare (parseAnd stop depth ts)
      bare (parseOrTail stop depth lhs r)) := by
  rw [parseOr]
  rcases parseAnd stop depth ts with _ | ⟨lhs, r, _⟩
  · rfl
  · rcases h : parseOrTail stop depth lhs r with _ | ⟨_, _, _⟩ <;> simp [h]

theorem bare_parseOrTail_or (lhs : Expr) (p : Nat) (ts : List Located) :
    bare (parseOrTail stop depth lhs (⟨.op .or, p⟩ :: ts)) =
      if maxDepth ≤ depth then .error .tooDeep
      else (do
        let (rhs, r) ← bare (parseAnd stop (depth + 1) ts)
        bare (parseOrTail stop (depth + 1) (.binary .or lhs rhs) r)) := by
  rw [parseOrTail]
  split
  · rfl
  · rcases parseAnd stop (depth + 1) ts with _ | ⟨rhs, r, _⟩
    · rfl
    · rcases h : parseOrTail stop (depth + 1) (.binary .or lhs rhs) r with _ | ⟨_, _, _⟩ <;>
        simp [h]

theorem bare_parseOrTail_of_ne (lhs : Expr) {ts : List Located}
    (h : ∀ p r, ts ≠ ⟨.op .or, p⟩ :: r) : bare (parseOrTail stop depth lhs ts) = .ok (lhs, ts) := by
  rw [parseOrTail]
  · rfl
  · exact h

theorem bare_parseAnd (ts : List Located) :
    bare (parseAnd stop depth ts) = (do
      let (lhs, r) ← bare (parseComparison stop depth ts)
      bare (parseAndTail stop depth lhs r)) := by
  rw [parseAnd]
  rcases parseComparison stop depth ts with _ | ⟨lhs, r, _⟩
  · rfl
  · rcases h : parseAndTail stop depth lhs r with _ | ⟨_, _, _⟩ <;> simp [h]

theorem bare_parseAndTail_and (lhs : Expr) (p : Nat) (ts : List Located) :
    bare (parseAndTail stop depth lhs (⟨.op .and, p⟩ :: ts)) =
      if maxDepth ≤ depth then .error .tooDeep
      else (do
        let (rhs, r) ← bare (parseComparison stop (depth + 1) ts)
        bare (parseAndTail stop (depth + 1) (.binary .and lhs rhs) r)) := by
  rw [parseAndTail]
  split
  · rfl
  · rcases parseComparison stop (depth + 1) ts with _ | ⟨rhs, r, _⟩
    · rfl
    · rcases h : parseAndTail stop (depth + 1) (.binary .and lhs rhs) r with _ | ⟨_, _, _⟩ <;>
        simp [h]

theorem bare_parseAndTail_of_ne (lhs : Expr) {ts : List Located}
    (h : ∀ p r, ts ≠ ⟨.op .and, p⟩ :: r) :
    bare (parseAndTail stop depth lhs ts) = .ok (lhs, ts) := by
  rw [parseAndTail]
  · rfl
  · exact h

theorem bare_parseComparison (ts : List Located) :
    bare (parseComparison stop depth ts) = (do
      let (lhs, r) ← bare (parseUnary stop depth ts)
      match comparison? r with
      | none => .ok (lhs, r)
      | some (o, ⟨q, _⟩) => do
        let (rhs, q) ← bare (parseUnary stop depth q)
        .ok (.binary o lhs rhs, q)) := by
  rw [parseComparison]
  rcases parseUnary stop depth ts with _ | ⟨lhs, r, _⟩
  · rfl
  · rcases hc : comparison? r with _ | ⟨o, q, _⟩
    · simp [hc]
    · rcases h : parseUnary stop depth q with _ | ⟨_, _, _⟩ <;> simp [hc, h]

theorem bare_parseUnary_not (p : Nat) (ts : List Located) :
    bare (parseUnary stop depth (⟨.not, p⟩ :: ts)) =
      if maxDepth ≤ depth then .error .tooDeep
      else (do
        let (e, r) ← bare (parseUnary stop (depth + 1) ts)
        .ok (.not e, r)) := by
  rw [parseUnary]
  split
  · rfl
  · rcases parseUnary stop (depth + 1) ts with _ | ⟨_, _, _⟩ <;> rfl

theorem bare_parseUnary_of_ne {ts : List Located} (h : ∀ p r, ts ≠ ⟨.not, p⟩ :: r) :
    bare (parseUnary stop depth ts) = bare (parsePostfix stop depth ts) := by
  rw [parseUnary]
  exact h

theorem bare_parsePostfix (ts : List Located) :
    bare (parsePostfix stop depth ts) = (do
      let (e, r) ← bare (parsePrimary stop depth ts)
      bare (parseLinks stop depth e r)) := by
  rw [parsePostfix]
  rcases parsePrimary stop depth ts with _ | ⟨e, r, _⟩
  · rfl
  · rcases h : parseLinks stop depth e r with _ | ⟨_, _, _⟩ <;> simp [h]

theorem bare_parseLinks_call (target : Expr) (name : String) (p q pos : Nat) (ts : List Located) :
    bare (parseLinks stop depth target (⟨.dot, p⟩ :: ⟨.name name, q⟩ :: ⟨.openParen, pos⟩ :: ts)) =
      if maxDepth ≤ depth then .error .tooDeep
      else (do
        let (e, r) ← bare (parseCall stop (depth + 1) target name pos ts)
        bare (parseLinks stop (depth + 1) e r)) := by
  rw [parseLinks]
  split
  · rfl
  · rcases parseCall stop (depth + 1) target name pos ts with _ | ⟨e, r, _⟩
    · rfl
    · rcases h : parseLinks stop (depth + 1) e r with _ | ⟨_, _, _⟩ <;> simp [h]

theorem bare_parseLinks_property (target : Expr) (name : String) (p q : Nat) {ts : List Located}
    (hts : ∀ pos r, ts ≠ ⟨.openParen, pos⟩ :: r) :
    bare (parseLinks stop depth target (⟨.dot, p⟩ :: ⟨.name name, q⟩ :: ts)) =
      if maxDepth ≤ depth then .error .tooDeep
      else bare (parseLinks stop (depth + 1) (.property target name) ts) := by
  rw [parseLinks]
  · split
    · rfl
    · rcases parseLinks stop (depth + 1) (.property target name) ts with _ | ⟨_, _, _⟩ <;> rfl
  · exact hts

/-- A point must be followed by a name. -/
theorem name_of_parseLinks_dot {target e : Expr} {p : Nat} {ts r : List Located}
    (h : bare (parseLinks stop depth target (⟨.dot, p⟩ :: ts)) = .ok (e, r)) :
    ∃ name q us, ts = ⟨.name name, q⟩ :: us := by
  rcases ts with _ | ⟨⟨t, q⟩, us⟩
  · rw [parseLinks] at h
    · split at h <;> cases h
    · simp
    · simp
  · cases t with
    | name s => exact ⟨s, q, us, rfl⟩
    | _ =>
      rw [parseLinks] at h
      · split at h <;> cases h
      · simp
      · simp

theorem bare_parseLinks_index (target : Expr) (p : Nat) (ts : List Located) :
    bare (parseLinks stop depth target (⟨.openBracket, p⟩ :: ts)) =
      if maxDepth ≤ depth then .error .tooDeep
      else (do
        let (key, r) ← bare (parseExpr stop (depth + 1) ts)
        let r ← skip (· matches .closeBracket) r
        bare (parseLinks stop (depth + 1) (.index target key) r)) := by
  rw [parseLinks]
  split
  · rfl
  · rcases parseExpr stop (depth + 1) ts with _ | ⟨key, r, _⟩
    · rfl
    · simp only [bare_ok, Except.ok_bind]
      split
      · rename_i hx
        have hs : skip (· matches .closeBracket) r = _ := skip_of_expect_error hx
        simp [hs]
      · rename_i q _ hx
        have hs : skip (· matches .closeBracket) r = _ := skip_of_expect_ok hx
        rcases h : parseLinks stop (depth + 1) (.index target key) q with _ | ⟨_, _, _⟩ <;>
          simp [hs, h]

theorem bare_parseLinks_of_ne (target : Expr) {ts : List Located}
    (hd : ∀ p r, ts ≠ ⟨.dot, p⟩ :: r) (hb : ∀ p r, ts ≠ ⟨.openBracket, p⟩ :: r) :
    bare (parseLinks stop depth target ts) = .ok (target, ts) := by
  rw [parseLinks]
  · rfl
  · exact hd
  · exact hb

theorem bare_parsePrimary_group (p : Nat) (ts : List Located) :
    bare (parsePrimary stop depth (⟨.openParen, p⟩ :: ts)) = (do
      let (e, r) ← bare (parseExpr stop depth ts)
      let r ← skip (· matches .closeParen) r
      .ok (e, r)) := by
  rw [parsePrimary]
  rcases parseExpr stop depth ts with _ | ⟨e, r, _⟩
  · rfl
  · simp only [bare_ok, Except.ok_bind]
    split
    · rename_i hx
      have hs : skip (· matches .closeParen) r = _ := skip_of_expect_error hx
      simp [hs]
    · rename_i hx
      have hs : skip (· matches .closeParen) r = _ := skip_of_expect_ok hx
      simp [hs]

theorem bare_parsePrimary_object (p : Nat) (ts : List Located) :
    bare (parsePrimary stop depth (⟨.openBrace, p⟩ :: ts)) = (do
      let (members, r) ← bare (parseMembers stop depth ts)
      let r ← skip (· matches .closeBrace) r
      .ok (.object members, r)) := by
  rw [parsePrimary]
  rcases parseMembers stop depth ts with _ | ⟨members, r, _⟩
  · rfl
  · simp only [bare_ok, Except.ok_bind]
    split
    · rename_i hx
      have hs : skip (· matches .closeBrace) r = _ := skip_of_expect_error hx
      simp [hs]
    · rename_i hx
      have hs : skip (· matches .closeBrace) r = _ := skip_of_expect_ok hx
      simp [hs]

theorem bare_parsePrimary_array (p : Nat) (ts : List Located) :
    bare (parsePrimary stop depth (⟨.openBracket, p⟩ :: ts)) = (do
      let (items, r) ← bare (parseItems stop depth ts)
      let r ← skip (· matches .closeBracket) r
      .ok (.array items, r)) := by
  rw [parsePrimary]
  rcases parseItems stop depth ts with _ | ⟨items, r, _⟩
  · rfl
  · simp only [bare_ok, Except.ok_bind]
    split
    · rename_i hx
      have hs : skip (· matches .closeBracket) r = _ := skip_of_expect_error hx
      simp [hs]
    · rename_i hx
      have hs : skip (· matches .closeBracket) r = _ := skip_of_expect_ok hx
      simp [hs]

theorem bare_parseItems_close (p : Nat) (ts : List Located) :
    bare (parseItems stop depth (⟨.closeBracket, p⟩ :: ts)) =
      .ok ([], ⟨.closeBracket, p⟩ :: ts) := by
  rw [parseItems]
  rfl

theorem bare_parseItems_of_ne {ts : List Located} (h : ∀ p r, ts ≠ ⟨.closeBracket, p⟩ :: r) :
    bare (parseItems stop depth ts) = (do
      let (item, r) ← bare (parseExpr stop depth ts)
      match after? (· matches .comma) r with
      | none => .ok ([item], r)
      | some q => do
        let (items, q) ← bare (parseItems stop depth q)
        .ok (item :: items, q)) := by
  rw [parseItems]
  · rcases parseExpr stop depth ts with _ | ⟨item, r, _⟩
    · rfl
    · simp only [bare_ok, Except.ok_bind]
      split
      · rename_i hx
        have hs : after? (· matches .comma) r = _ := after?_of_next?_none hx
        simp [hs]
      · rename_i q _ hx
        have hs : after? (· matches .comma) r = _ := after?_of_next?_some hx
        rcases h : parseItems stop depth q with _ | ⟨_, _, _⟩ <;> simp [hs, h]
  · exact h

theorem bare_parseMembers_close (p : Nat) (ts : List Located) :
    bare (parseMembers stop depth (⟨.closeBrace, p⟩ :: ts)) = .ok ([], ⟨.closeBrace, p⟩ :: ts) := by
  rw [parseMembers]
  rfl

theorem bare_parseMembers_text (k : String) (p : Nat) (ts : List Located) :
    bare (parseMembers stop depth (⟨.text k, p⟩ :: ts)) = bare (parseMember stop depth k ts) := by
  rw [parseMembers]
  rcases parseMember stop depth k ts with _ | ⟨_, _, _⟩ <;> rfl

theorem bare_parseMembers_name (k : String) (p : Nat) (ts : List Located) :
    bare (parseMembers stop depth (⟨.name k, p⟩ :: ts)) = bare (parseMember stop depth k ts) := by
  rw [parseMembers]
  rcases parseMember stop depth k ts with _ | ⟨_, _, _⟩ <;> rfl

theorem bare_parseMember (key : String) (ts : List Located) :
    bare (parseMember stop depth key ts) = (do
      let r ← skip (· matches .colon) ts
      let (value, q) ← bare (parseExpr stop depth r)
      match after? (· matches .comma) q with
      | none => .ok ([(key, value)], q)
      | some q => do
        let (members, q) ← bare (parseMembers stop depth q)
        .ok ((key, value) :: members, q)) := by
  rw [parseMember]
  split
  · rename_i hx
    have hs : skip (· matches .colon) ts = _ := skip_of_expect_error hx
    simp [hs]
  · rename_i r _ hx
    have hs : skip (· matches .colon) ts = _ := skip_of_expect_ok hx
    rw [hs]
    rcases hv : parseExpr stop depth r with _ | ⟨value, q, _⟩
    · simp [hv]
    · simp only [Except.ok_bind, hv, bare_ok]
      split
      · rename_i hy
        have ha : after? (· matches .comma) q = _ := after?_of_next?_none hy
        simp [ha]
      · rename_i q _ hy
        have ha : after? (· matches .comma) _ = _ := after?_of_next?_some hy
        rcases h : parseMembers stop depth q with _ | ⟨_, _, _⟩ <;> simp [ha, h]

theorem bare_parseCall_sort (target : Expr) (pos p : Nat) (ts : List Located) :
    bare (parseCall stop depth target "sort" pos (⟨.closeParen, p⟩ :: ts)) =
      .ok (.call target .sort, ts) := by
  rw [parseCall.eq_def]
  rfl

theorem bare_parseCall_visit (target : Expr) {name : String} (pos : Nat) {ts : List Located}
    {m : Visit} (hm : Visit.ofName? name = some m)
    (hs : m = .sort → after? (· matches .closeParen) ts = none) :
    bare (parseCall stop depth target name pos ts) = (do
      let (f, r) ← bare (parseLambda stop depth ts)
      let r ← skip (· matches .closeParen) r
      .ok (.visit target m f.1 f.2, r)) := by
  rw [parseCall.eq_def, hm]
  simp only
  split
  · rename_i r _ hn
    split at hn
    · rename_i hsort
      have ha : after? (· matches .closeParen) ts = some r := after?_of_next?_some hn
      rw [hs hsort] at ha
      cases ha
    · cases hn
  · rcases parseLambda stop depth ts with _ | ⟨⟨param, body⟩, r, _⟩
    · rfl
    · simp only [bare_ok, Except.ok_bind]
      split
      · rename_i hx
        have hs : skip (· matches .closeParen) r = _ := skip_of_expect_error hx
        simp [hs]
      · rename_i hx
        have hs : skip (· matches .closeParen) r = _ := skip_of_expect_ok hx
        simp [hs]

theorem bare_parseCall_method (target : Expr) {name : String} (pos : Nat) (ts : List Located)
    {m : Method} (hv : Visit.ofName? name = none) (hm : Method.ofName? name = some m) :
    bare (parseCall stop depth target name pos ts) = (do
      let r ← skip (· matches .closeParen) ts
      .ok (.call target m, r)) := by
  rw [parseCall.eq_def, hv, hm]
  simp only
  split
  · rename_i hx
    have hs : skip (· matches .closeParen) ts = _ := skip_of_expect_error hx
    simp [hs]
  · rename_i hx
    have hs : skip (· matches .closeParen) ts = _ := skip_of_expect_ok hx
    simp [hs]

theorem bare_parseCall_other (target : Expr) {name : String} (pos : Nat) (ts : List Located)
    (hv : Visit.ofName? name = none) (hm : Method.ofName? name = none) :
    bare (parseCall stop depth target name pos ts) =
      if name = "slice" then bare (parseSlice stop depth target ts)
      else .error (.unknownMethod name pos) := by
  rw [parseCall.eq_def, hv, hm]
  simp only
  split <;> rfl

theorem bare_parseSlice (target : Expr) (ts : List Located) :
    bare (parseSlice stop depth target ts) = (do
      let (start, r) ← bare (parseExpr stop depth ts)
      match after? (· matches .comma) r with
      | none => do
        let r ← skip (· matches .closeParen) r
        .ok (.slice target start, r)
      | some q => do
        let (last, q) ← bare (parseExpr stop depth q)
        let q ← skip (· matches .closeParen) q
        .ok (.sliceTo target start last, q)) := by
  rw [parseSlice]
  rcases parseExpr stop depth ts with _ | ⟨start, r, _⟩
  · rfl
  · simp only [bare_ok, Except.ok_bind]
    split
    · rename_i hx
      have ha : after? (· matches .comma) r = _ := after?_of_next?_none hx
      rw [ha]
      split
      · rename_i hy
        have hs : skip (· matches .closeParen) r = _ := skip_of_expect_error hy
        simp [hs]
      · rename_i hy
        have hs : skip (· matches .closeParen) r = _ := skip_of_expect_ok hy
        simp [hs]
    · rename_i q _ hx
      have ha : after? (· matches .comma) r = _ := after?_of_next?_some hx
      rw [ha]
      rcases hl : parseExpr stop depth q with _ | ⟨last, o, _⟩
      · simp [hl]
      · simp only [hl, bare_ok, Except.ok_bind]
        split
        · rename_i hy
          have hs : skip (· matches .closeParen) o = _ := skip_of_expect_error hy
          simp [hs]
        · rename_i hy
          have hs : skip (· matches .closeParen) o = _ := skip_of_expect_ok hy
          simp [hs]

theorem bare_parseLambda_name (param : String) (p q : Nat) (ts : List Located) :
    bare (parseLambda stop depth (⟨.name param, p⟩ :: ⟨.arrow, q⟩ :: ts)) = (do
      let (body, r) ← bare (parseExpr stop depth ts)
      .ok ((param, body), r)) := by
  rw [parseLambda]
  rcases parseExpr stop depth ts with _ | ⟨_, _, _⟩ <;> rfl

theorem bare_parseLambda_group (param : String) (p q o : Nat) (ts : List Located) :
    bare (parseLambda stop depth
        (⟨.openParen, p⟩ :: ⟨.name param, q⟩ :: ⟨.closeParen, o⟩ :: ts)) = (do
      let r ← skip (· matches .arrow) ts
      let (body, r) ← bare (parseExpr stop depth r)
      .ok ((param, body), r)) := by
  rw [parseLambda]
  split
  · rename_i hx
    have hs : skip (· matches .arrow) ts = _ := skip_of_expect_error hx
    simp [hs]
  · rename_i r _ hx
    have hs : skip (· matches .arrow) ts = _ := skip_of_expect_ok hx
    rw [hs]
    rcases h : parseExpr stop depth r with _ | ⟨_, _, _⟩ <;> simp [h]

/-- A lambda begins with its parameter, bare or in parentheses. -/
theorem start_of_parseLambda {ts r : List Located} {f : String × Expr}
    (h : bare (parseLambda stop depth ts) = .ok (f, r)) :
    (∃ param p q us, ts = ⟨.name param, p⟩ :: ⟨.arrow, q⟩ :: us) ∨
      ∃ param p q o us,
        ts = ⟨.openParen, p⟩ :: ⟨.name param, q⟩ :: ⟨.closeParen, o⟩ :: us := by
  rw [parseLambda.eq_def] at h
  split at h
  · exact .inl ⟨_, _, _, _, rfl⟩
  · exact .inr ⟨_, _, _, _, _, rfl⟩
  · cases h

end Switchboard.Expression
