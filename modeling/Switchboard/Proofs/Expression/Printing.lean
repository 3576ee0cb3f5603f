import Switchboard.Proofs.Decimal.Integers
import Switchboard.Proofs.Expression.Scanning
import Switchboard.Proofs.Expression.Trees

/-! Expressions as text. Every operand, every negated expression and every target stands in
parentheses, so the text of a tree is read as that tree. -/
namespace Switchboard.Expression

/-- A text in quotes, and any other value as JSON. -/
def printLiteral : Json → List Char
  | .str s => quote s
  | v => v.chars

def group (s : List Char) : List Char := '(' :: s ++ [')']

namespace Expr

mutual

/-- `blank` stands around operators and arrows and behind commas and colons. -/
def print (blank : List Char) : Expr → List Char
  | literal v => printLiteral v
  | undefined => "undefined".toList
  | root => ['$']
  | var name => name.toList
  | property target name => group (target.print blank) ++ '.' :: name.toList
  | index target key => group (target.print blank) ++ ('[' :: key.print blank ++ [']'])
  | call target method =>
    group (target.print blank) ++ '.' :: (method.name.toList ++ group [])
  | visit target method param body =>
    group (target.print blank) ++ '.' :: (method.name.toList ++
      group (param.toList ++ (blank ++ '=' :: '>' :: (blank ++ body.print blank))))
  | slice target start =>
    group (target.print blank) ++ '.' :: ("slice".toList ++ group (start.print blank))
  | sliceTo target start stop =>
    group (target.print blank) ++ '.' :: ("slice".toList ++
      group (start.print blank ++ ',' :: (blank ++ stop.print blank)))
  | object members => '{' :: printMembers blank members ++ ['}']
  | array items => '[' :: printItems blank items ++ [']']
  | binary op lhs rhs =>
    group (lhs.print blank) ++ (blank ++ (op.symbol ++ (blank ++ group (rhs.print blank))))
  | not e => '!' :: group (e.print blank)

def printMembers (blank : List Char) : List (String × Expr) → List Char
  | [] => []
  | [(k, e)] => quote k ++ ':' :: (blank ++ e.print blank)
  | (k, e) :: m :: members =>
    quote k ++ ':' :: (blank ++ (e.print blank ++
      ',' :: (blank ++ printMembers blank (m :: members))))

def printItems (blank : List Char) : List Expr → List Char
  | [] => []
  | [e] => e.print blank
  | e :: f :: items => e.print blank ++ ',' :: (blank ++ printItems blank (f :: items))

end

/-- Values that a literal can stand for; integers as far as numbers have whole values. -/
def writableLiteral : Json → Bool
  | .null => true
  | .bool _ => true
  | .str _ => true
  | .num (.int n) => n.natAbs < 9000000000000000
  | _ => false

mutual

/-- Literals can be written, names are names, and no variable has a reserved one. -/
def isWritable : Expr → Bool
  | literal v => writableLiteral v
  | undefined => true
  | root => true
  | var name => isName name && !reserved.contains name
  | property target name => target.isWritable && isName name
  | index target key => target.isWritable && key.isWritable
  | call target _ => target.isWritable
  | visit target _ param body => target.isWritable && isName param && body.isWritable
  | slice target start => target.isWritable && start.isWritable
  | sliceTo target start stop => target.isWritable && start.isWritable && stop.isWritable
  | object members => writableMembers members
  | array items => writableItems items
  | binary _ lhs rhs => lhs.isWritable && rhs.isWritable
  | not e => e.isWritable

def writableMembers : List (String × Expr) → Bool
  | [] => true
  | (_, e) :: members => e.isWritable && writableMembers members

def writableItems : List Expr → Bool
  | [] => true
  | e :: items => e.isWritable && writableItems items

end

end Expr

/-- The text is scanned into these tokens, whatever breaks off after it. -/
def Prints (s : List Char) (us : List Token) : Prop :=
  ∀ rest vs, Breaks rest → Scans rest vs → Scans (s ++ rest) (us ++ vs)

namespace Prints
variable {s s' : List Char} {us us' : List Token}

theorem nil : Prints [] [] := fun _ _ _ h => h

theorem name {name : String} (hn : isName name = true) : Prints name.toList [.name name] :=
  fun _ _ hr h => .name hn hr.stops_name h

theorem text (s : String) : Prints (quote s) [.text s] := fun _ _ _ h => .text s h

theorem integer {n : Int} (hn : n.natAbs < 9000000000000000) :
    Prints (Number.chars (.int n)) [.number (.ofInt n)] :=
  fun _ _ hr h => .integer hn hr.stops_numeral h

theorem comma {blank : List Char} (hb : blank.all Text.isWhite = true) (h : Prints s us)
    (h' : Prints s' us') : Prints (s ++ ',' :: (blank ++ s')) (us ++ .comma :: us') := by
  intro rest vs hr hs
  have hcomma : Scans (',' :: (blank ++ (s' ++ rest))) (.comma :: (us' ++ vs)) :=
    .mark rfl (.blank hb (h' _ _ hr hs))
  simpa using h _ _ (.cons (by decide) _) hcomma

/-- A member of an object. -/
theorem pair {blank : List Char} (hb : blank.all Text.isWhite = true) (k : String)
    (h : Prints s us) : Prints (quote k ++ ':' :: (blank ++ s)) (.text k :: .colon :: us) := by
  intro rest vs hr hs
  have hcolon : Scans (':' :: (blank ++ (s ++ rest))) (.colon :: (us ++ vs)) :=
    .mark rfl (.blank hb (h _ _ hr hs))
  simpa using Scans.text k hcolon

/-- What stands between brackets breaks off by itself. -/
theorem enclosed (h : Prints s us) {l r : Char} {a b : Token} (ha : punctuation? l = some a)
    (hb : punctuation? r = some b) (hr : r ∈ breakers) {rest : List Char} {vs : List Token}
    (hs : Scans rest vs) : Scans (l :: (s ++ r :: rest)) (a :: (us ++ b :: vs)) :=
  .mark ha (h _ _ (.cons hr rest) (.mark hb hs))

theorem group_scans (h : Prints s us) {rest : List Char} {vs : List Token} (hs : Scans rest vs) :
    Scans (group s ++ rest) (.openParen :: (us ++ .closeParen :: vs)) := by
  have := h.enclosed (l := '(') (r := ')') rfl rfl (by decide) hs
  simpa [group] using this

/-- The name of a method and its arguments. -/
theorem invoke {name : String} (hn : isName name = true) (h : Prints s us) :
    Prints (name.toList ++ group s) (.name name :: .openParen :: (us ++ [.closeParen])) := by
  intro rest vs _ hs
  have hstop : Stops continuesName (group s ++ rest) :=
    .cons (continuesName_of_isMark rfl) _
  simpa using Scans.name hn hstop (h.group_scans hs)

end Prints

/-- The text is that of the tokens of the derivation, which nests at most `d` deeper than where it
starts. -/
structure Writes {k : Nonterminal} (s : List Char) (t : Derivation k) (d : Nat) : Prop where
  depth_le : ∀ c, t.depth c ≤ c + d
  prints : Prints s t.tokens

/-- The text of a derivation that stands for `v`. -/
def Written (k : Nonterminal) (s : List Char) (v : k.Value) (d : Nat) : Prop :=
  ∃ t : Derivation k, t.value = v ∧ Writes s t d

theorem Written.mono {k : Nonterminal} {s : List Char} {v : k.Value} {d n : Nat} (hd : d ≤ n)
    (h : Written k s v d) : Written k s v n := by
  obtain ⟨t, hv, ht⟩ := h
  refine ⟨t, hv, fun c => ?_, ht.prints⟩
  have := ht.depth_le c
  omega

namespace Derivation

/-- A unary expression, of which no chain is made. -/
def ofUnary (u : Derivation .unary) : Derivation .expr :=
  .expr (.disjunction (.conjunction (.alone u) .noConjunct) .noDisjunct)

/-- A primary expression without links. -/
def ofPrimary (p : Derivation .primary) : Derivation .unary := .plain (.linked p .noLink)

@[simp] theorem tokens_ofUnary (u : Derivation .unary) : (ofUnary u).tokens = u.tokens := by
  simp [ofUnary, tokens]

@[simp] theorem tokens_ofPrimary (p : Derivation .primary) : (ofPrimary p).tokens = p.tokens := by
  simp [ofPrimary, tokens]

@[simp] theorem depth_ofUnary (u : Derivation .unary) (c : Nat) :
    (ofUnary u).depth c = u.depth (c + 1) := by
  have := u.le_depth (c + 1)
  simp [ofUnary, depth]
  omega

@[simp] theorem depth_ofPrimary (p : Derivation .primary) (c : Nat) :
    (ofPrimary p).depth c = p.depth c := by
  have := p.le_depth c
  simp [ofPrimary, depth]
  omega

/-- Two operands with an operator between them; each kind of operator has a level of its own. -/
theorem exists_binary (o : Operator) {l r : Derivation .unary} {d : Nat}
    (hl : ∀ c, l.depth c ≤ c + d) (hr : ∀ c, r.depth c ≤ c + d) :
    ∃ t : Derivation .expr, t.value = .binary o l.value r.value ∧
      t.tokens = l.tokens ++ .op o :: r.tokens ∧ ∀ c, t.depth c ≤ c + (d + 2) := by
  by_cases ho : o.isComparison = true
  -- A comparison is one operand of either connective, so that it nests no deeper than its parts.
  · refine ⟨.expr (.disjunction (.conjunction (.compare l o ho r) .noConjunct) .noDisjunct), rfl,
      by simp [tokens], fun c => ?_⟩
    have hlc := hl (c + 1)
    have hrc := hr (c + 1)
    simp only [depth]
    omega
  · have ho : o = .and ∨ o = .or := by
      cases o <;> simp [Operator.isComparison] at ho ⊢
    rcases ho with rfl | rfl
    · refine ⟨.expr (.disjunction (.conjunction (.alone l) (.conjunct (.alone r) .noConjunct))
        .noDisjunct), rfl, by simp [tokens], fun c => ?_⟩
      have hlc := hl (c + 1)
      have hrc := hr (c + 1 + 1)
      simp only [depth]
      omega
    · refine ⟨.expr (.disjunction (.conjunction (.alone l) .noConjunct)
        (.disjunct (.conjunction (.alone r) .noConjunct) .noDisjunct)), rfl, by simp [tokens],
        fun c => ?_⟩
      have hlc := hl (c + 1)
      have hrc := hr (c + 1 + 1)
      simp only [depth]
      omega

end Derivation

namespace Written
variable {s s' blank : List Char} {d : Nat}

theorem primary {p : Derivation .primary} (h : Writes s p d) :
    Written .expr s p.value (d + 1) := by
  refine ⟨.ofUnary (.ofPrimary p), rfl, fun c => ?_, ?_⟩
  · have := h.depth_le (c + 1)
    simp only [Derivation.depth_ofUnary, Derivation.depth_ofPrimary]
    omega
  · simpa using h.prints

/-- One token that is an expression. -/
theorem leaf {p : Derivation .primary} (hp : ∀ c, p.depth c = c) (h : Prints s p.tokens) :
    Written .expr s p.value 2 :=
  (primary (d := 0) ⟨fun c => Nat.le_of_eq (hp c), h⟩).mono (by decide)

theorem not {e : Expr} (h : Written .expr s e d) :
    Written .expr ('!' :: group s) (.not e) (d + 2) := by
  obtain ⟨t, rfl, h⟩ := h
  refine ⟨.ofUnary (.not (.ofPrimary (.group t))), rfl, fun c => ?_, fun rest us hr hs => ?_⟩
  · have := h.depth_le (c + 1 + 1)
    simp only [Derivation.depth_ofUnary, Derivation.depth, Derivation.depth_ofPrimary]
    omega
  · have := Scans.not (.cons (by decide) _) (h.prints.group_scans hs)
    simpa [Derivation.tokens, group] using this

theorem binary (hb : blank.all Text.isWhite = true) (o : Operator) {e f : Expr}
    (he : Written .expr s e d) (hf : Written .expr s' f d) :
    Written .expr (group s ++ (blank ++ (o.symbol ++ (blank ++ group s')))) (.binary o e f)
      (d + 2) := by
  obtain ⟨l, rfl, hl⟩ := he
  obtain ⟨r, rfl, hr⟩ := hf
  obtain ⟨t, hv, ht, hd⟩ := Derivation.exists_binary o (l := .ofPrimary (.group l))
    (r := .ofPrimary (.group r)) (d := d) (fun c => by simpa [Derivation.depth] using hl.depth_le c)
    (fun c => by simpa [Derivation.depth] using hr.depth_le c)
  refine ⟨t, hv, hd, fun rest us _ hs => ?_⟩
  -- White space and parentheses make no longer operator of the one before them.
  have hstop : Stops (· == '=') (blank ++ (group s' ++ rest)) :=
    .blank (by
      intro c hc
      refine Bool.eq_false_iff.mpr fun he => ?_
      rw [beq_iff_eq.mp he] at hc
      cases hc) hb (.cons (by decide) _)
  have := hl.prints.group_scans
    (.blank hb (.operator o hstop (.blank hb (hr.prints.group_scans hs))))
  rw [ht]
  simpa [Derivation.tokens] using this

/-- A target in parentheses and what is linked to it. -/
theorem link {e : Expr} {f : Expr → Expr} (ht : Written .expr s e d)
    (hl : Written .links s' f (d + 1)) : Written .expr (group s ++ s') (f e) (d + 2) := by
  obtain ⟨t, rfl, ht⟩ := ht
  obtain ⟨l, rfl, hl⟩ := hl
  refine ⟨.ofUnary (.plain (.linked (.group t) l)), rfl, fun c => ?_, fun rest us hr hs => ?_⟩
  · have htc := ht.depth_le (c + 1)
    have hlc := hl.depth_le (c + 1)
    simp only [Derivation.depth_ofUnary, Derivation.depth]
    omega
  · have := ht.prints.group_scans (hl.prints _ _ hr hs)
    simpa [Derivation.tokens] using this

theorem property {name : String} (hn : isName name = true) :
    Written .links ('.' :: name.toList) (fun e => .property e name) (d + 1) := by
  refine ⟨.property name .noLink, rfl, fun c => ?_, fun rest us hr hs => ?_⟩
  · simp only [Derivation.depth]
    omega
  · exact .mark rfl (Prints.name hn _ _ hr hs)

theorem index {k : Expr} (hk : Written .expr s k d) :
    Written .links ('[' :: s ++ [']']) (fun e => .index e k) (d + 1) := by
  obtain ⟨t, rfl, ht⟩ := hk
  refine ⟨.index t .noLink, rfl, fun c => ?_, fun rest us _ hs => ?_⟩
  · have := ht.depth_le (c + 1)
    simp only [Derivation.depth]
    omega
  · have := ht.prints.enclosed (l := '[') (r := ']') rfl rfl (by decide) hs
    simpa [Derivation.tokens] using this

theorem call {f : Expr → Expr} (hf : Written .call s f d) :
    Written .links ('.' :: s) f (d + 1) := by
  obtain ⟨m, rfl, hm⟩ := hf
  refine ⟨.call m .noLink, rfl, fun c => ?_, fun rest us hr hs => ?_⟩
  · have := hm.depth_le (c + 1)
    simp only [Derivation.depth]
    omega
  · have := Scans.mark (c := '.') rfl (hm.prints _ _ hr hs)
    simpa [Derivation.tokens] using this

theorem method (m : Method) :
    Written .call (m.name.toList ++ group []) (fun e => .call e m) d := by
  have hname : isName m.name = true := by cases m <;> exact isName_of_isLower rfl
  exact ⟨.method m, rfl, fun c => Nat.le_add_right c d, Prints.nil.invoke hname⟩

/-- A lambda whose parameter stands without parentheses. -/
theorem lambda (hb : blank.all Text.isWhite = true) {param : String} (hp : isName param = true)
    {body : Expr} (h : Written .expr s body d) :
    Written .lambda (param.toList ++ (blank ++ '=' :: '>' :: (blank ++ s))) (param, body) d := by
  obtain ⟨t, rfl, ht⟩ := h
  refine ⟨.lambda param t, rfl, ht.depth_le, fun rest us hr hs => ?_⟩
  have hstop : Stops continuesName (blank ++ '=' :: '>' :: (blank ++ (s ++ rest))) :=
    .blank (fun _ => continuesName_of_isWhite) hb
      (.cons (continuesName_of_isMark rfl) _)
  have := Scans.name hp hstop (.blank hb (.arrow (.blank hb (ht.prints _ _ hr hs))))
  simpa [Derivation.tokens] using this

theorem visit (m : Visit) {param : String} {body : Expr} (h : Written .lambda s (param, body) d) :
    Written .call (m.name.toList ++ group s) (fun e => .visit e m param body) d := by
  obtain ⟨t, hv, ht⟩ := h
  have hname : isName m.name = true := by cases m <;> exact isName_of_isLower rfl
  exact ⟨.visit m t, by simp [Derivation.value, hv], ht.depth_le, ht.prints.invoke hname⟩

theorem slice {start : Expr} (h : Written .expr s start d) :
    Written .call ("slice".toList ++ group s) (fun e => .slice e start) d := by
  obtain ⟨t, rfl, ht⟩ := h
  exact ⟨.slice t, rfl, ht.depth_le, ht.prints.invoke (isName_of_isLower rfl)⟩

theorem sliceTo (hb : blank.all Text.isWhite = true) {start stop : Expr}
    (h : Written .expr s start d) (h' : Written .expr s' stop d) :
    Written .call ("slice".toList ++ group (s ++ ',' :: (blank ++ s')))
      (fun e => .sliceTo e start stop) d := by
  obtain ⟨t, rfl, ht⟩ := h
  obtain ⟨t', rfl, ht'⟩ := h'
  refine ⟨.sliceTo t t', rfl, fun c => Nat.max_le.mpr ⟨ht.depth_le c, ht'.depth_le c⟩, ?_⟩
  have hname : isName "slice" = true := isName_of_isLower rfl
  simpa [Derivation.tokens] using (ht.prints.comma hb ht'.prints).invoke hname

theorem literal {v : Json} (h : Expr.writableLiteral v = true) :
    Written .expr (printLiteral v) (.literal v) 2 := by
  cases v with
  | null => exact leaf (p := .null) (fun _ => rfl) (Prints.name (isName_of_isLower rfl))
  | bool b =>
    cases b with
    | false => exact leaf (p := .bool false) (fun _ => rfl) (Prints.name (isName_of_isLower rfl))
    | true => exact leaf (p := .bool true) (fun _ => rfl) (Prints.name (isName_of_isLower rfl))
  | str s => exact leaf (p := .text s) (fun _ => rfl) (Prints.text s)
  | num n =>
    cases n with
    | float x => cases h
    | int n =>
      have hn : n.natAbs < 9000000000000000 := of_decide_eq_true h
      have hv : Json.ofFloat (.ofInt n) = .num (.int n) := by
        rw [Json.ofFloat, Number.ofFloat?_ofInt hn]
        rfl
      have := leaf (p := .number (.ofInt n)) (fun _ => rfl) (.integer hn)
      rwa [Derivation.value, hv] at this
  | arr items => cases h
  | obj members => cases h

theorem var {name : String} (hn : isName name = true) (hr : name ∉ reserved) :
    Written .expr name.toList (.var name) 2 :=
  leaf (p := .var name hr) (fun _ => rfl) (Prints.name hn)

theorem items (hb : blank.all Text.isWhite = true) {items : List Expr}
    (h : ∀ e ∈ items, Written .expr (e.print blank) e d) :
    Written .items (Expr.printItems blank items) items d := by
  induction items with
  | nil => exact ⟨.noItem, rfl, fun c => Nat.le_add_right c d, Prints.nil⟩
  | cons e items ih =>
    obtain ⟨he, hes⟩ := List.forall_mem_cons.mp h
    obtain ⟨t, rfl, ht⟩ := he
    cases items with
    | nil => exact ⟨.lastItem t, rfl, ht.depth_le, ht.prints⟩
    | cons f items =>
      obtain ⟨more, hv, hm⟩ := ih hes
      exact ⟨.item t more, by simp only [Derivation.value, hv],
        fun c => Nat.max_le.mpr ⟨ht.depth_le c, hm.depth_le c⟩, ht.prints.comma hb hm.prints⟩

theorem members (hb : blank.all Text.isWhite = true) {members : List (String × Expr)}
    (h : ∀ m ∈ members, Written .expr (m.2.print blank) m.2 d) :
    Written .members (Expr.printMembers blank members) members d := by
  induction members with
  | nil => exact ⟨.noMember, rfl, fun c => Nat.le_add_right c d, Prints.nil⟩
  | cons m members ih =>
    obtain ⟨k, e⟩ := m
    obtain ⟨he, hms⟩ := List.forall_mem_cons.mp h
    obtain ⟨t, rfl, ht⟩ := he
    cases members with
    | nil => exact ⟨.lastMember (.text k) t, rfl, ht.depth_le, ht.prints.pair hb k⟩
    | cons m members =>
      obtain ⟨more, hv, hm⟩ := ih hms
      exact ⟨.member (.text k) t more, by simp only [Derivation.value, hv, Key.string],
        fun c => Nat.max_le.mpr ⟨ht.depth_le c, hm.depth_le c⟩,
        (ht.prints.comma hb hm.prints).pair hb k⟩

theorem array {es : List Expr} (h : Written .items s es d) :
    Written .expr ('[' :: s ++ [']']) (.array es) (d + 1) := by
  obtain ⟨t, rfl, ht⟩ := h
  refine primary (p := .array t) ⟨ht.depth_le, fun rest us _ hs => ?_⟩
  have := ht.prints.enclosed (l := '[') (r := ']') rfl rfl (by decide) hs
  simpa [Derivation.tokens] using this

theorem object {ms : List (String × Expr)} (h : Written .members s ms d) :
    Written .expr ('\x7b' :: s ++ ['\x7d']) (.object ms) (d + 1) := by
  obtain ⟨t, rfl, ht⟩ := h
  refine primary (p := .object t) ⟨ht.depth_le, fun rest us _ hs => ?_⟩
  have := ht.prints.enclosed (l := '\x7b') (r := '\x7d') rfl rfl (by decide) hs
  simpa [Derivation.tokens] using this

end Written

section
variable {blank : List Char}

theorem writable_of_mem_items {items : List Expr} (h : Expr.writableItems items = true) :
    ∀ e ∈ items, e.isWritable = true := by
  induction items with
  | nil => nofun
  | cons e items ih =>
    obtain ⟨he, hes⟩ := Bool.and_eq_true_iff.mp h
    exact List.forall_mem_cons.mpr ⟨he, ih hes⟩

theorem writable_of_mem_members {members : List (String × Expr)}
    (h : Expr.writableMembers members = true) : ∀ m ∈ members, m.2.isWritable = true := by
  induction members with
  | nil => nofun
  | cons m members ih =>
    obtain ⟨hm, hms⟩ := Bool.and_eq_true_iff.mp h
    exact List.forall_mem_cons.mpr ⟨hm, ih hms⟩

/-- Each level of an expression nests its text two levels deeper at most. -/
theorem written_print (hb : blank.all Text.isWhite = true) {e : Expr}
    (h : e.isWritable = true) : Written .expr (e.print blank) e (2 * e.height) := by
  induction e using Expr.induct with
  | literal v => exact .literal h
  | undefined => exact .leaf (p := .undefined) (fun _ => rfl) (Prints.name (isName_of_isLower rfl))
  | root => exact .leaf (p := .root) (fun _ => rfl) fun _ _ _ hs => .mark rfl hs
  | var name =>
    obtain ⟨hn, hr⟩ := Bool.and_eq_true_iff.mp h
    exact .var hn (by simpa using hr)
  | property target name iht =>
    obtain ⟨ht, hn⟩ := Bool.and_eq_true_iff.mp h
    exact (iht ht).link (.property hn)
  | index target key iht ihk =>
    -- Of two parts each is as high as the higher one at most, here and below.
    obtain ⟨ht, hk⟩ := Bool.and_eq_true_iff.mp h
    have ht := (iht ht).mono (n := 2 * max target.height key.height) (by omega)
    exact ht.link (.index ((ihk hk).mono (by omega)))
  | call target method iht => exact (iht h).link (.call (.method method))
  | visit target method param body iht ihb =>
    obtain ⟨htp, hbody⟩ := Bool.and_eq_true_iff.mp h
    obtain ⟨ht, hp⟩ := Bool.and_eq_true_iff.mp htp
    have ht := (iht ht).mono (n := 2 * max target.height body.height) (by omega)
    exact ht.link (.call (.visit method (.lambda hb hp ((ihb hbody).mono (by omega)))))
  | slice target start iht ihs =>
    obtain ⟨ht, hs⟩ := Bool.and_eq_true_iff.mp h
    have ht := (iht ht).mono (n := 2 * max target.height start.height) (by omega)
    exact ht.link (.call (.slice ((ihs hs).mono (by omega))))
  | sliceTo target start stop iht ihs ihe =>
    obtain ⟨hts, he⟩ := Bool.and_eq_true_iff.mp h
    obtain ⟨ht, hs⟩ := Bool.and_eq_true_iff.mp hts
    have ht := (iht ht).mono (n := 2 * max target.height (max start.height stop.height))
      (by omega)
    exact ht.link (.call (.sliceTo hb ((ihs hs).mono (by omega)) ((ihe he).mono (by omega))))
  | object members ih =>
    have hms : ∀ m ∈ members,
        Written .expr (m.2.print blank) m.2 (2 * Expr.heightMembers members + 1) := by
      intro m hm
      have := Expr.height_le_of_mem_members hm
      exact (ih m hm (writable_of_mem_members h m hm)).mono (by omega)
    exact (Written.members hb hms).object
  | array items ih =>
    have hes : ∀ e ∈ items,
        Written .expr (e.print blank) e (2 * Expr.heightItems items + 1) := by
      intro e he
      have := Expr.height_le_of_mem_items he
      exact (ih e he (writable_of_mem_items h e he)).mono (by omega)
    exact (Written.items hb hes).array
  | binary op lhs rhs ihl ihr =>
    obtain ⟨hl, hr⟩ := Bool.and_eq_true_iff.mp h
    have hl := (ihl hl).mono (n := 2 * max lhs.height rhs.height) (by omega)
    have hr := (ihr hr).mono (n := 2 * max lhs.height rhs.height) (by omega)
    exact .binary hb op hl hr
  | not e ih => exact .not (ih h)

/-- Reading an expression leaves fewer tokens, so it has one. -/
theorem tokens_ne_nil {t : Derivation .expr} (h : t.depth 0 ≤ maxDepth) : t.tokens ≠ [] := by
  intro ht
  have hread := @Derivation.completes _ t 0 0 [] [] (Nat.zero_le maxDepth) ht.symm trivial
  rw [bounded_of_le h, List.append_nil] at hread
  cases hp : parseExpr 0 0 [] with
  | error x =>
    rw [hp] at hread
    cases hread
  | ok x => exact Nat.not_lt_zero _ x.2.2

/-- The text of an expression is read as that expression, whatever white space stands between its
tokens. -/
theorem parse_print (hb : blank.all Text.isWhite = true) {e : Expr} (hw : e.isWritable = true)
    (hh : e.height ≤ 32) : parse (String.ofList (e.print blank)) = .ok e := by
  obtain ⟨t, hv, ht⟩ := written_print hb hw
  obtain ⟨ts, hts, hus⟩ := ht.prints [] [] .nil .nil 0
  rw [List.append_nil] at hts hus
  have hdepth : t.depth 0 ≤ maxDepth := by
    have := ht.depth_le 0
    have : maxDepth = 64 := rfl
    omega
  have hne : ts ≠ [] := by
    rintro rfl
    exact tokens_ne_nil hdepth hus.symm
  have hderives : Derives (ts.map (·.token)) e (t.depth 0) := ⟨t, hus.symm, hv, rfl⟩
  rw [parse_of_tokenize (by rw [String.toList_ofList]; exact hts),
    parseTokens_of_derives hne hderives, if_pos hdepth]

theorem parse_print_filter :
    parse "((($).a).filter(x => (x) == (-1))) && (!(\"\\\"\\\\\"))" =
      .ok (.binary .and
        (.visit (.property .root "a") .filter "x"
          (.binary .eq (.var "x") (.literal (.num (.int (-1))))))
        (.not (.literal (.str "\"\\")))) := by
  have h := @parse_print [' '] (by decide) (.binary .and
      (.visit (.property .root "a") .filter "x"
        (.binary .eq (.var "x") (.literal (.num (.int (-1))))))
      (.not (.literal (.str "\"\\")))) (by decide +kernel) (by decide)
  refine Eq.trans (congrArg parse ?_) h
  decide +kernel

end

end Switchboard.Expression
