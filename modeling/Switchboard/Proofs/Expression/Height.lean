import Mathlib.Algebra.BigOperators.Intervals
import Switchboard.Proofs.Expression.Dotted

/-! How high the expressions are that are read at all. A chain that has ended gives its levels back,
so that what is put on top of it counts anew. An expression may be far higher than the limit for
that reason, but each level adds only so much to what the levels further in allow. -/
namespace Switchboard.Expression

/-- The height that an expression can have with `n` levels left. Its operands and targets have one
level less. Each of three chains may be as long as there are levels: of links, of `&&` and of `||`.
A comparison and a template add one each. -/
def heightBound : Nat → Nat
  | 0 => 0
  | n + 1 => heightBound n + 3 * n + 2

theorem heightBound_eq_sum (n : Nat) : heightBound n = ∑ i ∈ Finset.Icc 1 n, (3 * i - 1) := by
  induction n with
  | zero => rfl
  | succ n ih =>
    rw [heightBound, Finset.sum_Icc_succ_top (Nat.succ_le_succ (Nat.zero_le n)), ← ih]
    omega

theorem heightBound_le_succ (n : Nat) : heightBound n ≤ heightBound (n + 1) := by
  rw [heightBound]
  omega

/-- Whatever `f` is put on, it adds `n` at most to the height of that or of its own parts, which
are no higher than `b`. -/
def Grows (b n : Nat) (f : Expr → Expr) : Prop := ∀ e, (f e).height ≤ max e.height b + n

namespace Grows
variable {b n p : Nat} {f g : Expr → Expr}

theorem none : Grows b n fun e => e :=
  fun _ => Nat.le_trans (Nat.le_max_left _ _) (Nat.le_add_right _ _)

/-- One node above the expression and above parts of height `p`. -/
theorem one (h : ∀ e, (f e).height = max e.height p + 1) (hp : p ≤ b) : Grows b 1 f := by
  intro e
  rw [h e]
  exact Nat.succ_le_succ (max_le_max (Nat.le_refl _) hp)

/-- One node above the expression alone. -/
theorem leaf (h : ∀ e, (f e).height = e.height + 1) : Grows b 1 f :=
  one (p := 0) (fun e => by rw [Nat.max_zero]; exact h e) (Nat.zero_le b)

theorem mono {b' : Nat} (hb : b ≤ b') (h : Grows b n f) : Grows b' n f :=
  fun e => Nat.le_trans (h e) (Nat.add_le_add_right (max_le_max (Nat.le_refl _) hb) n)

theorem comp (hf : Grows b n f) (hg : Grows b 1 g) : Grows b (n + 1) fun e => f (g e) := by
  intro e
  have hge := hg e
  refine Nat.le_trans (hf (g e)) ?_
  omega

theorem height_le (h : Grows b n f) {e : Expr} (he : e.height ≤ b) : (f e).height ≤ b + n := by
  have hf := h e
  rwa [Nat.max_eq_right he] at hf

/-- A link in front of a chain of links. -/
theorem link (hf : Grows (heightBound n + 1) n f) (hg : Grows (heightBound n) 1 g) :
    Grows (heightBound (n + 1) + 1) (n + 1) fun e => f (g e) :=
  (hf.comp (hg.mono (Nat.le_succ _))).mono (Nat.succ_le_succ (heightBound_le_succ n))

end Grows

/-- What is read with `n` levels left is no higher than this. -/
def Nonterminal.Within (n : Nat) : (k : Nonterminal) → k.Value → Prop
  | expr, e => e.height ≤ heightBound n
  | disjunction, e => e.height ≤ heightBound n + 3 * n + 2
  | disjuncts, f => Grows (heightBound n + 2 * n + 2) n f
  | conjunction, e => e.height ≤ heightBound n + 2 * n + 2
  | conjuncts, f => Grows (heightBound n + n + 2) n f
  | comparison, e => e.height ≤ heightBound n + n + 2
  | unary, e => e.height ≤ heightBound n + n + 1
  | linked, e => e.height ≤ heightBound n + n + 1
  | links, f => Grows (heightBound n + 1) n f
  | call, f => Grows (heightBound n) 1 f
  | primary, e => e.height ≤ heightBound n + 1
  | items, es => Expr.heightItems es ≤ heightBound n
  | members, ms => Expr.heightMembers ms ≤ heightBound n
  | lambda, f => f.2.height ≤ heightBound n

namespace Derivation

/-- Below a step that counts, one level less is left. -/
theorem levels_succ {k : Nonterminal} {t : Derivation k} {c d : Nat} (h : t.depth (c + 1) ≤ d) :
    d - c = d - (c + 1) + 1 := by
  have := t.le_depth (c + 1)
  omega

/-- What a derivation stands for, where the counter starts at `c` and the limit is `d`. -/
theorem within {k : Nonterminal} (t : Derivation k) {c d : Nat} (h : t.depth c ≤ d) :
    k.Within (d - c) t.value := by
  -- The limit stays as it is and the counter varies, so that each step that counts takes one level.
  induction t generalizing c with
  | expr t ih =>
    rw [levels_succ h]
    exact ih h
  | disjunction first others ihf iho =>
    obtain ⟨hf, ho⟩ := Nat.max_le.mp h
    exact Nat.le_trans ((iho ho).height_le (ihf hf)) (by omega)
  | conjunction first others ihf iho =>
    obtain ⟨hf, ho⟩ := Nat.max_le.mp h
    exact Nat.le_trans ((iho ho).height_le (ihf hf)) (by omega)
  | noDisjunct => exact .none
  | noConjunct => exact .none
  | noLink => exact .none
  | disjunct operand others ihp iho =>
    obtain ⟨hp, ho⟩ := Nat.max_le.mp h
    rw [levels_succ hp]
    refine ((iho ho).comp (.one (fun _ => rfl) (ihp hp))).mono ?_
    rw [heightBound]
    omega
  | conjunct operand others ihp iho =>
    obtain ⟨hp, ho⟩ := Nat.max_le.mp h
    rw [levels_succ hp]
    refine ((iho ho).comp (.one (fun _ => rfl) (ihp hp))).mono ?_
    rw [heightBound]
    omega
  | alone t ih => exact Nat.le_succ_of_le (ih h)
  | compare lhs o ho rhs ihl ihr =>
    obtain ⟨hl, hr⟩ := Nat.max_le.mp h
    exact Nat.succ_le_succ (Nat.max_le.mpr ⟨ihl hl, ihr hr⟩)
  | not t ih =>
    rw [levels_succ h]
    refine Nat.le_trans (Nat.succ_le_succ (ih h)) ?_
    rw [heightBound]
    omega
  | plain t ih => exact ih h
  | linked target links iht ihl =>
    obtain ⟨ht, hl⟩ := Nat.max_le.mp h
    exact Nat.le_trans ((ihl hl).height_le (iht ht)) (by omega)
  | property name more ih =>
    rw [levels_succ h]
    exact (ih h).link (.leaf fun _ => rfl)
  | call m more ihm iho =>
    obtain ⟨hm, ho⟩ := Nat.max_le.mp h
    rw [levels_succ hm]
    exact (iho ho).link (ihm hm)
  | index key more ihk iho =>
    obtain ⟨hk, ho⟩ := Nat.max_le.mp h
    rw [levels_succ hk]
    exact (iho ho).link (.one (fun _ => rfl) (ihk hk))
  | method m => exact .leaf fun _ => rfl
  | visit m f ih => exact .one (fun _ => rfl) (ih h)
  | slice start ih => exact .one (fun _ => rfl) (ih h)
  | sliceTo start stop ihs iht =>
    obtain ⟨hs, ht⟩ := Nat.max_le.mp h
    exact .one (fun _ => rfl) (Nat.max_le.mpr ⟨ihs hs, iht ht⟩)
  | group t ih => exact Nat.le_succ_of_le (ih h)
  | object members ih => exact Nat.succ_le_succ (ih h)
  | array items ih => exact Nat.succ_le_succ (ih h)
  | noItem => exact Nat.zero_le _
  | lastItem t ih => exact Nat.max_le.mpr ⟨ih h, Nat.zero_le _⟩
  | item t more iht ihm =>
    obtain ⟨ht, hm⟩ := Nat.max_le.mp h
    exact Nat.max_le.mpr ⟨iht ht, ihm hm⟩
  | noMember => exact Nat.zero_le _
  | lastMember key t ih => exact Nat.max_le.mpr ⟨ih h, Nat.zero_le _⟩
  | member key t more iht ihm =>
    obtain ⟨ht, hm⟩ := Nat.max_le.mp h
    exact Nat.max_le.mpr ⟨iht ht, ihm hm⟩
  | lambda param body ih => exact ih h
  | lambdaGroup param body ih => exact ih h
  | _ => exact Nat.succ_le_succ (Nat.zero_le _)

end Derivation

/-- An operator with the root behind it, `m` times. -/
def furtherText (o : Operator) : Nat → List Char
  | 0 => []
  | m + 1 => o.symbol ++ '$' :: furtherText o m

/-- Each chain with `m` members on a target: names behind points, then, after a comparison, operands
of `&&` and of `||`. -/
def chainedText (target : List Char) (m : Nat) : List Char :=
  target ++ (dots (List.replicate m "a") ++
    '=' :: '=' :: '$' :: (furtherText .and m ++ furtherText .or m))

/-- Chains on an array that has been made in the same way with one level less. -/
def tallestText : Nat → List Char
  | 0 => chainedText ['$'] 0
  | m + 1 => chainedText ('[' :: tallestText m ++ [']']) (m + 1)

namespace Derivation

def furtherAnd : Nat → Derivation .conjuncts
  | 0 => .noConjunct
  | m + 1 => .conjunct (.alone (ofPrimary .root)) (furtherAnd m)

def furtherOr : Nat → Derivation .disjuncts
  | 0 => .noDisjunct
  | m + 1 => .disjunct (.conjunction (.alone (ofPrimary .root)) .noConjunct) (furtherOr m)

def chained (target : Derivation .primary) (m : Nat) : Derivation .expr :=
  .expr (.disjunction (.conjunction
    (.compare (.plain (.linked target (ofNames (List.replicate m "a")))) .eq rfl (ofPrimary .root))
    (furtherAnd m)) (furtherOr m))

def tallest : Nat → Derivation .expr
  | 0 => chained .root 0
  | m + 1 => chained (.array (.lastItem (tallest m))) (m + 1)

variable {rest : List Char} {us : List Token}

theorem scans_furtherAnd (m : Nat) (h : Scans rest us) :
    Scans (furtherText .and m ++ rest) ((furtherAnd m).tokens ++ us) := by
  induction m with
  | zero => exact h
  | succ m ih => exact .operator .and (.cons rfl _) (.mark rfl ih)

theorem scans_furtherOr (m : Nat) (h : Scans rest us) :
    Scans (furtherText .or m ++ rest) ((furtherOr m).tokens ++ us) := by
  induction m with
  | zero => exact h
  | succ m ih => exact .operator .or (.cons rfl _) (.mark rfl ih)

theorem depth_furtherAnd (m c : Nat) : (furtherAnd m).depth c = c + m := by
  induction m generalizing c with
  | zero => rfl
  | succ m ih =>
    simp only [furtherAnd, depth, depth_ofPrimary]
    rw [ih]
    omega

theorem depth_furtherOr (m c : Nat) : (furtherOr m).depth c = c + m := by
  induction m generalizing c with
  | zero => rfl
  | succ m ih =>
    simp only [furtherOr, depth, depth_ofPrimary]
    rw [ih]
    omega

theorem height_furtherAnd (m : Nat) (e : Expr) :
    ((furtherAnd m).value e).height = e.height + m := by
  induction m generalizing e with
  | zero => rfl
  | succ m ih =>
    refine (ih (.binary .and e .root)).trans ?_
    rw [Expr.height, Expr.height, Nat.max_eq_left e.height_pos]
    omega

theorem height_furtherOr (m : Nat) (e : Expr) :
    ((furtherOr m).value e).height = e.height + m := by
  induction m generalizing e with
  | zero => rfl
  | succ m ih =>
    refine (ih (.binary .or e .root)).trans ?_
    rw [Expr.height, Expr.height, Nat.max_eq_left e.height_pos]
    omega

theorem height_ofNames (names : List String) (e : Expr) :
    ((ofNames names).value e).height = e.height + names.length := by
  induction names generalizing e with
  | nil => rfl
  | cons name names ih =>
    refine (ih (.property e name)).trans ?_
    rw [Expr.height, List.length_cons]
    omega

theorem prints_chained {s : List Char} {p : Derivation .primary}
    (hp : ∀ rest us, Scans rest us → Scans (s ++ rest) (p.tokens ++ us)) (m : Nat) :
    Prints (chainedText s m) (chained p m).tokens := by
  intro rest us hr hs
  have hname : ∀ name ∈ List.replicate m "a", isName name = true := by
    intro name hname
    rw [List.eq_of_mem_replicate hname]
    exact isName_of_isLower rfl
  have hcompare : Scans ('=' :: '=' :: '$' :: (furtherText .and m ++ (furtherText .or m ++ rest)))
      (.op .eq :: .dollar :: ((furtherAnd m).tokens ++ ((furtherOr m).tokens ++ us))) :=
    .operator .eq (.cons rfl _) (.mark rfl (scans_furtherAnd m (scans_furtherOr m hs)))
  have hlinks := scans_dots hname (.cons (continuesName_of_isMark rfl) _) hcompare
  simpa [chainedText, chained, tokens] using hp _ _ hlinks

theorem prints_tallest (m : Nat) : Prints (tallestText m) (tallest m).tokens := by
  induction m with
  | zero => exact prints_chained (fun _ _ hs => .mark rfl hs) 0
  | succ m ih =>
    refine prints_chained (fun rest us hs => ?_) (m + 1)
    have := ih.enclosed (l := '[') (r := ']') rfl rfl (by decide) hs
    simpa [tokens] using this

theorem depth_chained (p : Derivation .primary) (m c : Nat) :
    (chained p m).depth c = max (p.depth (c + 1)) (c + 1 + m) := by
  simp only [chained, depth, depth_ofPrimary, depth_ofNames, depth_furtherAnd, depth_furtherOr,
    List.length_replicate]
  omega

theorem height_chained (p : Derivation .primary) (m : Nat) :
    (chained p m).value.height = p.value.height + 3 * m + 1 := by
  have hpos := p.value.height_pos
  have hroot : (ofPrimary .root).value.height = 1 := rfl
  simp only [chained, value, height_furtherOr, height_furtherAnd, Expr.height, height_ofNames,
    List.length_replicate, hroot]
  omega

theorem depth_tallest (m c : Nat) : (tallest m).depth c = c + 1 + m := by
  induction m generalizing c with
  | zero => exact (depth_chained .root 0 c).trans (Nat.max_self (c + 1))
  | succ m ih =>
    rw [tallest, depth_chained, depth, depth, ih]
    omega

theorem height_tallest (m : Nat) : (tallest m).value.height = heightBound (m + 1) := by
  induction m with
  | zero => exact height_chained .root 0
  | succ m ih =>
    have harray : (array (.lastItem (tallest m))).value.height = heightBound (m + 1) + 1 := by
      rw [← ih]
      exact congrArg (· + 1) (Nat.max_zero _)
    have hsucc : heightBound (m + 1 + 1) = heightBound (m + 1) + 3 * (m + 1) + 2 := rfl
    rw [tallest, height_chained, harray, hsucc]
    omega

end Derivation

/-- An expression that uses all levels. -/
theorem parse_tallest {m : Nat} (h : m < maxDepth) :
    parse (String.ofList (tallestText m)) = .ok (Derivation.tallest m).value := by
  have hs := Derivation.prints_tallest m [] [] .nil .nil
  rw [List.append_nil, List.append_nil] at hs
  refine parse_of_scans hs ?_
  rw [Derivation.depth_tallest]
  omega

theorem derivation_of_parse {s : String} {e : Expr} (h : parse s = .ok e) :
    ∃ t : Derivation .expr, t.value = e ∧ t.depth 0 ≤ maxDepth := by
  unfold parse at h
  simp only at h
  split at h
  · cases h
  · obtain ⟨d, hd, t, -, hv, rfl⟩ := derives_of_parseTokens h
    exact ⟨t, hv, hd⟩

/-- Whatever the text, the expression that it is read as is no higher than the levels allow, and no
walk leads further down. -/
theorem height_le_of_parse {s : String} {e : Expr} (h : parse s = .ok e) :
    ∑ i ∈ Finset.Icc 1 maxDepth, (3 * i - 1) = 6176 ∧ e.height ≤ 6176 ∧
      ∀ walk, Expr.IsWalk (e :: walk) → (e :: walk).length ≤ 6176 := by
  have hbound : heightBound maxDepth = 6176 := by decide
  have hheight : e.height ≤ 6176 := by
    obtain ⟨t, rfl, hd⟩ := derivation_of_parse h
    rw [← hbound]
    exact t.within hd
  refine ⟨?_, hheight, fun walk hwalk => Nat.le_trans hwalk.length_le_height hheight⟩
  rw [← heightBound_eq_sum, hbound]

/-- The bound is reached, and so is the length of a walk. -/
theorem height_le_of_parse_tallest :
    parse (String.ofList (tallestText 63)) = .ok (Derivation.tallest 63).value ∧
      (Derivation.tallest 63).value.height = 6176 ∧
      (∃ walk, Expr.IsWalk ((Derivation.tallest 63).value :: walk) ∧
        ((Derivation.tallest 63).value :: walk).length = 6176) ∧
      ∀ walk, Expr.IsWalk ((Derivation.tallest 63).value :: walk) →
        ((Derivation.tallest 63).value :: walk).length ≤ 6176 := by
  have h : parse (String.ofList (tallestText 63)) = .ok (Derivation.tallest 63).value :=
    parse_tallest (by decide)
  have hbound : heightBound 64 = 6176 := by decide
  have hheight : (Derivation.tallest 63).value.height = 6176 :=
    (Derivation.height_tallest 63).trans hbound
  refine ⟨h, hheight, ?_, (height_le_of_parse h).2.2⟩
  rw [← hheight]
  exact Expr.exists_walk _

end Switchboard.Expression
