import Switchboard.Formula.Template
import Switchboard.Proofs.Decimal.ReadBack
import Switchboard.Proofs.Formula.Reading
import Switchboard.Proofs.Text.Classes

/-! Formulas with placeholders for numbers. What is filled in is a factor of its own: a number, or a
minus sign and a number, which no operator of the formula takes apart. -/
namespace Switchboard

/-- Integers fit in 64 bits, signed or unsigned; floats are finite. -/
def Number.Fits : Number → Prop
  | .int n => -2 ^ 63 ≤ n ∧ n < 2 ^ 64
  | .float x => Decimal.isFinite x = true

namespace Formula

theorem isNumberChar_of_isWhite {c : Char} (h : Text.isWhite c = true) :
    isNumberChar c = false := by
  refine Bool.eq_false_iff.mpr fun hnumber => ?_
  rcases Bool.or_eq_true_iff.mp hnumber with hdigit | hpoint
  · rw [Text.isWhite_of_isDigit hdigit] at h
    cases h
  · rw [eq_of_beq hpoint] at h
    cases h

/-- Words set apart by white space. -/
inductive Spaced : List (List Char) → List Char → Prop where
  | nil : Spaced [] []
  | white {c : Char} {ws : List (List Char)} {s : List Char} (hc : Text.isWhite c = true)
      (h : Spaced ws s) : Spaced ws (c :: s)
  | word (w : List Char) {c : Char} {ws : List (List Char)} {s : List Char}
      (hc : Text.isWhite c = true) (h : Spaced ws s) : Spaced (w :: ws) (w ++ c :: s)
  | last (w : List Char) : Spaced [w] w

theorem tokens_white {c : Char} (hc : Text.isWhite c = true) (run s : List Char) :
    tokens run (c :: s) =
      tokens.endNumber run >>= fun us => (tokens [] s).map (us ++ ·) := by
  rw [tokens, if_neg (by rw [isNumberChar_of_isWhite hc]; exact Bool.false_ne_true)]
  simp only [hc, if_true]
  rfl

/-- White space ends what is read of a word. -/
theorem tokens_append_white {w run : List Char} {us : List Token} (h : tokens run w = .ok us)
    {c : Char} (hc : Text.isWhite c = true) (s : List Char) :
    tokens run (w ++ c :: s) = (tokens [] s).map (us ++ ·) := by
  have hlater (ts ps : List Token) (f : List Token → List Token) (hf : ∀ r, f (ts ++ r) = ps ++ r) :
      ((tokens [] s).map (ts ++ ·) >>= fun r => .ok (f r)) = (tokens [] s).map (ps ++ ·) := by
    cases tokens [] s with
    | error e => rfl
    | ok r => exact congrArg Except.ok (hf r)
  induction w generalizing run us with
  | nil =>
    rw [tokens] at h
    rw [List.nil_append, tokens_white hc, h, Except.ok_bind]
  | cons a w ih =>
    rw [tokens] at h
    rw [List.cons_append, tokens]
    by_cases hnumber : isNumberChar a = true
    · rw [if_pos hnumber] at h ⊢
      exact ih h
    · rw [if_neg hnumber] at h ⊢
      obtain ⟨number, hrun, h⟩ := Except.bind_eq_ok.mp h
      rw [hrun, Except.ok_bind]
      by_cases hwhite : Text.isWhite a = true
      · rw [if_pos hwhite] at h ⊢
        obtain ⟨ts, hts, h⟩ := Except.bind_eq_ok.mp h
        cases h
        rw [ih hts]
        exact hlater ts _ (number ++ ·) fun r => (List.append_assoc ..).symm
      · rw [if_neg hwhite] at h ⊢
        cases hsign : sign? a with
        | none =>
          simp only [hsign] at h
          cases h
        | some t =>
          simp only [hsign] at h ⊢
          obtain ⟨ts, hts, h⟩ := Except.bind_eq_ok.mp h
          cases h
          rw [ih hts]
          exact hlater ts _ (number ++ t :: ·) fun r => by simp

/-- Each word is read on its own. -/
theorem Spaced.tokens {ws : List (List Char)} {s : List Char} {tss : List (List Token)}
    (h : Spaced ws s) (hwords : List.Forall₂ (fun w ts => Formula.tokens [] w = .ok ts) ws tss) :
    Formula.tokens [] s = .ok tss.flatten := by
  induction h generalizing tss with
  | nil =>
    cases hwords
    rfl
  | white hc h ih =>
    rw [tokens_white hc, ih hwords]
    rfl
  | word w hc h ih =>
    cases hwords with
    | cons hw hws =>
      rw [tokens_append_white hw hc, ih hws]
      rfl
  | last w =>
    cases hwords with
    | cons hw hws =>
      cases hws
      rw [hw]
      simp

namespace Derivation
variable {α β γ : Type} {k : Nonterminal}

/-- What holds of the words of the leaves and of the marks holds all along the tree. -/
theorem forall₂_words {R : β → γ → Prop} {leaf : α → List β} {leaf' : α → List γ} {mark : Mark → β}
    {mark' : Mark → γ} (hleaf : ∀ a, List.Forall₂ R (leaf a) (leaf' a))
    (hmark : ∀ m, R (mark m) (mark' m)) (t : Derivation α k) :
    List.Forall₂ R (t.words leaf mark) (t.words leaf' mark') := by
  induction t with
  | sum first more ihf ihm => exact List.rel_append ihf ihm
  | noTerm => exact .nil
  | term o t more iht ihm => exact .cons (hmark _) (List.rel_append iht ihm)
  | product first more ihf ihm => exact List.rel_append ihf ihm
  | noFactor => exact .nil
  | times o t more iht ihm => exact .cons (hmark _) (List.rel_append iht ihm)
  | leaf a => exact hleaf a
  | negative t ih => exact .cons (hmark _) ih
  | positive t ih => exact .cons (hmark _) ih
  | group t ih => exact .cons (hmark _) (List.rel_append ih (.cons (hmark _) .nil))

theorem flatten_words (leaf : α → List β) (mark : Mark → β) (t : Derivation α k) :
    (t.words (fun a => [leaf a]) fun m => [mark m]).flatten = t.words leaf mark := by
  induction t <;> simp [words, *]

end Derivation

theorem pieces_cons {c : Char} (hc : c ≠ '\x7b') (s : List Char) :
    pieces (c :: s) = .char c :: pieces s := by
  rw [pieces, if_neg hc]

theorem pieces_hole {name : List Char} (hne : name ≠ [])
    (hname : ∀ c ∈ name, isNameChar c = true) (s : List Char) :
    pieces ('\x7b' :: (name ++ '\x7d' :: s)) = .hole name :: pieces s := by
  have htake : (name ++ '\x7d' :: s).takeWhile isNameChar = name := by
    rw [List.takeWhile_append_of_pos hname]
    exact List.append_nil name
  have hdrop : (name ++ '\x7d' :: s).dropWhile isNameChar = '\x7d' :: s := by
    rw [List.dropWhile_append_of_pos hname]
    rfl
  rw [pieces, if_pos rfl]
  split
  · next d rest h =>
    rw [hdrop] at h
    cases h
    rw [htake, if_pos ⟨rfl, hne⟩]
  · next h =>
    rw [hdrop] at h
    cases h

/-- The text of a piece. -/
def Piece.text : Piece → List Char
  | .char c => [c]
  | .hole name => '\x7b' :: (name ++ ['\x7d'])

/-- The pieces of a formula make up its text. -/
theorem flatMap_text_pieces (s : List Char) : (pieces s).flatMap Piece.text = s := by
  fun_induction pieces s with
  | case1 => rfl
  | case2 s name d rest h hlt hd ih =>
    obtain ⟨rfl, hne⟩ := hd
    rw [List.flatMap_cons, ih, Piece.text]
    have hsplit := s.takeWhile_append_dropWhile (p := isNameChar)
    rw [h] at hsplit
    rw [List.cons_append, List.append_assoc]
    exact congrArg (List.cons _) hsplit
  | case3 s name d rest h hlt hd ih => rw [List.flatMap_cons, ih]; rfl
  | case4 s h ih => rw [List.flatMap_cons, ih]; rfl
  | case5 c s hc ih => rw [List.flatMap_cons, ih]; rfl

/-- What a placeholder stands for. -/
def held (value record : Json) (name : List Char) : Option Json :=
  if name = "value".toList then some value else Path.get? (Path.ofChars name) record

section FillIn
variable (value record : Json)

/-- A text with its placeholders filled in. -/
def fillIn (s : List Char) : List Char := (pieces s).flatMap (·.fill value record)

theorem toList_substitute (formula : String) :
    (substitute formula value record).toList = fillIn value record formula.toList :=
  String.toList_ofList

theorem fillIn_nil : fillIn value record [] = [] := by
  rw [fillIn, pieces, List.flatMap_nil]

theorem fillIn_append {w : List Char} (hw : ∀ c ∈ w, c ≠ '\x7b') (s : List Char) :
    fillIn value record (w ++ s) = w ++ fillIn value record s := by
  induction w with
  | nil => rfl
  | cons c w ih =>
    rw [fillIn, List.cons_append, pieces_cons (hw c List.mem_cons_self), List.flatMap_cons]
    exact congrArg (c :: ·) (ih fun d hd => hw d (List.mem_cons_of_mem c hd))

theorem fillIn_hole {name : List Char} (hne : name ≠ []) (hname : ∀ c ∈ name, isNameChar c = true)
    {u : List Char} (hu : fillText? (held value record name) = some u) (s : List Char) :
    fillIn value record ('\x7b' :: (name ++ '\x7d' :: s)) = u ++ fillIn value record s := by
  have hfill : Piece.fill value record (.hole name) = u := by
    show (fillText? (held value record name)).getD _ = u
    rw [hu, Option.getD_some]
  rw [fillIn, pieces_hole hne hname, List.flatMap_cons, hfill]
  rfl

/-- Words set apart by white space are filled in each on its own. -/
theorem Spaced.fillIn {ws us : List (List Char)} {s : List Char} (h : Spaced ws s)
    (hwords : List.Forall₂ (fun w u => ∀ s, Formula.fillIn value record (w ++ s) =
      u ++ Formula.fillIn value record s) ws us) :
    Spaced us (Formula.fillIn value record s) := by
  have hwhite {c : Char} (hc : Text.isWhite c = true) (s : List Char) :
      Formula.fillIn value record (c :: s) = c :: Formula.fillIn value record s := by
    refine fillIn_append value record (w := [c]) (fun d hd => ?_) s
    rw [List.mem_singleton.mp hd]
    rintro rfl
    cases hc
  induction h generalizing us with
  | nil =>
    cases hwords
    rw [fillIn_nil]
    exact .nil
  | white hc h ih =>
    rw [hwhite hc]
    exact .white hc (ih hwords)
  | word w hc h ih =>
    cases hwords with
    | cons hw hws =>
      rw [hw, hwhite hc]
      exact .word _ hc (ih hws)
  | last w =>
    cases hwords with
    | cons hw hws =>
      cases hws
      have hlast := hw []
      rw [fillIn_nil, List.append_nil, List.append_nil] at hlast
      rw [hlast]
      exact .last _

end FillIn

section Leaves
variable (value record : Json)

/-- A leaf of a formula: a numeral without a sign, or a placeholder for a number that is written
without an exponent or for a boolean. -/
inductive Leaf where
  | numeral (s : List Char) (x : Float) (hne : s ≠ []) (hs : ∀ c ∈ s, isNumberChar c = true)
      (hx : Decimal.float? s = some x)
  | number (name : List Char) (n : Number) (hne : name ≠ [])
      (hname : ∀ c ∈ name, isNameChar c = true) (hn : held value record name = some (.num n))
      (hfits : n.Fits) (hplain : 'e' ∉ n.chars)
  | flag (name : List Char) (b : Bool) (hne : name ≠ [])
      (hname : ∀ c ∈ name, isNameChar c = true) (hb : held value record name = some (.bool b))

end Leaves

/-- A number as it is written, with a minus sign for a negative one. -/
def ofNumber : Number → Derivation Float .factor
  | .int n => if n < 0 then .negative (.leaf (.ofInt n.natAbs)) else .leaf (.ofInt n.natAbs)
  | .float x =>
    if Decimal.isNegative x then .negative (.leaf (Decimal.unsign x))
    else .leaf (Decimal.unsign x)

theorem value_ofNumber (n : Number) : (ofNumber n).value id = n.toFloat := by
  cases n with
  | int n =>
    cases n with
    | ofNat n => rfl
    | negSucc n =>
      rw [ofNumber, if_pos (Int.negSucc_lt_zero n)]
      rfl
  | float x =>
    rw [ofNumber, Decimal.unsign]
    split
    · exact Decimal.neg_neg x
    · rfl

theorem dividesByZero_ofNumber (n : Number) : (ofNumber n).dividesByZero id = false := by
  cases n <;> rw [ofNumber] <;> split <;> rfl

theorem tokens_run {s : List Char} (hs : ∀ c ∈ s, isNumberChar c = true) (run : List Char) :
    tokens run s = tokens.endNumber (run ++ s) := by
  induction s generalizing run with
  | nil => rw [tokens, List.append_nil]
  | cons c s ih =>
    rw [tokens, if_pos (hs c List.mem_cons_self), ih fun d hd => hs d (List.mem_cons_of_mem c hd),
      List.append_assoc]
    rfl

theorem tokens_numeral {s : List Char} {x : Float} (hne : s ≠ [])
    (hs : ∀ c ∈ s, isNumberChar c = true) (hx : Decimal.float? s = some x) :
    tokens [] s = .ok [.number x] := by
  rw [tokens_run hs, List.nil_append, tokens.endNumber, if_neg hne, hx]

theorem tokens_minus {s : List Char} {ts : List Token} (h : tokens [] s = .ok ts) :
    tokens [] ('-' :: s) = .ok (.minus :: ts) := by
  have hnumber : ¬ isNumberChar '-' = true := by decide
  have hwhite : ¬ Text.isWhite '-' = true := by decide
  rw [tokens, if_neg hnumber, h]
  simp only [hwhite]
  rfl

/-- A number that is written without an exponent is read as a numeral, after the minus sign of a
negative one. -/
theorem tokens_chars {n : Number} (hfits : n.Fits) (hplain : 'e' ∉ n.chars) :
    tokens [] n.chars = .ok (ofNumber n).tokens := by
  cases n with
  | int n =>
    obtain ⟨hlow, hhigh⟩ := hfits
    have hdigits := Decimal.all_isDigit_digitsOf n.natAbs
    have hread := Decimal.unsigned?_digitsOf (n := n.natAbs) (by omega)
    have htokens := tokens_numeral (Decimal.digitsOf_ne_nil n.natAbs)
      (fun c hc => by rw [isNumberChar, List.all_eq_true.mp hdigits c hc]; rfl)
      ((Decimal.float?_digits hdigits).trans hread)
    rw [Number.chars, ofNumber]
    split
    · exact tokens_minus htokens
    · exact htokens
  | float x =>
    obtain ⟨s, hs, hread, hchars, -⟩ := Decimal.exists_render Number.layout hfits
    have hne : s ≠ [] := by
      rintro rfl
      cases hread
    rw [Number.chars, hs] at hplain ⊢
    have htokens := tokens_numeral hne (fun c hc => by
      rcases hchars c hc with h | rfl | ⟨he, -⟩
      · rw [isNumberChar, h]
        rfl
      · rfl
      · exact absurd (List.mem_append_right _ he) hplain) (Decimal.float?_of_unsigned? hread)
    rw [ofNumber]
    split
    · exact tokens_minus htokens
    · exact htokens

namespace Leaf
variable {value record : Json}

def text : Leaf value record → List Char
  | numeral s .. => s
  | number name .. => '\x7b' :: (name ++ ['\x7d'])
  | flag name .. => '\x7b' :: (name ++ ['\x7d'])

def worth : Leaf value record → Float
  | numeral _ x .. => x
  | number _ n .. => n.toFloat
  | flag _ b .. => if b then 1 else 0

/-- What is filled in, as a tree. -/
def tree : Leaf value record → Derivation Float .factor
  | numeral _ x .. => .leaf x
  | number _ n .. => ofNumber n
  | flag _ b .. => .leaf (if b then 1 else 0)

/-- What is filled in, as a text. -/
def filled : Leaf value record → List Char
  | numeral s .. => s
  | number _ n .. => n.chars
  | flag _ b .. => if b then ['1'] else ['0']

theorem value_tree (a : Leaf value record) : a.tree.value id = a.worth := by
  cases a with
  | number name n => exact value_ofNumber n
  | numeral => rfl
  | flag => rfl

theorem dividesByZero_tree (a : Leaf value record) : a.tree.dividesByZero id = false := by
  cases a with
  | number name n => exact dividesByZero_ofNumber n
  | numeral => rfl
  | flag => rfl

theorem tokens_filled (a : Leaf value record) : Formula.tokens [] a.filled = .ok a.tree.tokens := by
  cases a with
  | numeral s x hne hs hx => exact tokens_numeral hne hs hx
  | number name n hne hname hn hfits hplain => exact tokens_chars hfits hplain
  | flag name b =>
    have hone : Formula.tokens [] ['1'] = .ok [.number 1] :=
      Except.toOption_eq_some.mp (by decide +kernel)
    have hzero : Formula.tokens [] ['0'] = .ok [.number 0] :=
      Except.toOption_eq_some.mp (by decide +kernel)
    cases b with
    | true => exact hone
    | false => exact hzero

theorem fillIn_text (a : Leaf value record) (s : List Char) :
    fillIn value record (a.text ++ s) = a.filled ++ fillIn value record s := by
  cases a with
  | numeral w x hne hw hx =>
    refine fillIn_append value record (fun c hc => ?_) s
    rintro rfl
    exact absurd (hw _ hc) (by decide)
  | number name n hne hname hn =>
    simpa [text, filled] using fillIn_hole value record hne hname (congrArg fillText? hn) s
  | flag name b hne hname hb =>
    simpa [text, filled] using fillIn_hole value record hne hname (congrArg fillText? hb) s

end Leaf

theorem Mark.tokens_char (m : Mark) : tokens [] [m.char] = .ok [m.token] := by
  cases m <;> rfl

theorem Mark.char_ne (m : Mark) : m.char ≠ '\x7b' := by
  cases m <;> decide

/-- The words of a formula. -/
def wordsOf {value record : Json} (t : Derivation (Leaf value record) .sum) : List (List Char) :=
  t.words (fun a => [a.text]) fun m => [m.char]

section Filled
variable {value record : Json} {t : Derivation (Leaf value record) .sum} {formula : String}

/-- The tokens of a formula that has been filled in are those of its own tree, with what is filled
in as a factor in the place of each leaf. -/
theorem tokens_substitute (h : Spaced (wordsOf t) formula.toList) :
    tokens [] (substitute formula value record).toList = .ok (t.graft Leaf.tree).tokens := by
  have hfilled : Spaced (t.words (fun a => [a.filled]) fun m => [m.char])
      (fillIn value record formula.toList) := by
    refine h.fillIn value record (t.forall₂_words (fun a => .cons a.fillIn_text .nil) fun m => ?_)
    refine fillIn_append value record fun c hc => ?_
    exact List.mem_singleton.mp hc ▸ m.char_ne
  have hwords : List.Forall₂ (fun w ts => tokens [] w = .ok ts)
      (t.words (fun a => [a.filled]) fun m => [m.char])
      (t.words (fun a => [a.tree.tokens]) fun m => [m.token]) :=
    t.forall₂_words (R := fun w ts => tokens [] w = .ok ts)
      (fun a => .cons a.tokens_filled .nil) Mark.tokens_char
  rw [toList_substitute, hfilled.tokens hwords, Derivation.flatten_words, Derivation.tokens,
    Derivation.words_graft]
  rfl

end Filled

/-- A formula in which all words are set apart by white space is worth, once filled in, what its own
tree is worth with each placeholder standing for its number, or fails for one of the three reasons
for which a tree may fail. What is filled in anywhere takes the place of a piece that was there
before. -/
theorem evaluate_substitute (formula : String) :
    (∀ (value record : Json) (t : Derivation (Leaf value record) .sum),
      Spaced (wordsOf t) formula.toList →
        let s := substitute formula value record
        tokens [] s.toList = .ok (t.graft Leaf.tree).tokens ∧
          (∀ v, evaluate s = .ok v ↔ (t.graft Leaf.tree).depth ≤ maxDepth ∧
            t.dividesByZero Leaf.worth = false ∧ t.value Leaf.worth = v ∧
            Decimal.isFinite v = true) ∧
          ∀ e, evaluate s = .error e →
            e = .tooDeep ∧ maxDepth < (t.graft Leaf.tree).depth ∨
            e = .divisionByZero ∧ t.dividesByZero Leaf.worth = true ∨
            e = .notFinite ∧ Decimal.isFinite (t.value Leaf.worth) = false) ∧
      ∃ ps : List Piece, ps.flatMap Piece.text = formula.toList ∧
        ∀ value record, (substitute formula value record).toList =
          ps.flatMap (·.fill value record) := by
  refine ⟨fun value record t h => ?_, pieces formula.toList, flatMap_text_pieces _,
    fun value record => toList_substitute value record formula⟩
  have htokens := tokens_substitute h
  have hworth : (fun a : Leaf value record => a.tree.value id) = Leaf.worth :=
    funext Leaf.value_tree
  have htree := evaluate_tree htokens
  rw [Derivation.value_graft, Derivation.dividesByZero_graft _ _ Leaf.dividesByZero_tree,
    hworth] at htree
  exact ⟨htokens, htree⟩

/-- Two less the product of minus three and a half. -/
theorem evaluate_substitute_negative :
    let record : Json := .obj [("a", .obj [("b", .num (.float 0.5))])]
    let formula := " 2 - \x7bvalue\x7d\t* \x7ba.b\x7d"
    Spaced [['2'], ['-'], "\x7bvalue\x7d".toList, ['*'], "\x7ba.b\x7d".toList] formula.toList ∧
      substitute formula (.num (.int (-3))) record = " 2 - -3\t* 0.5" ∧
      evaluate (substitute formula (.num (.int (-3))) record) = .ok 3.5 := by
  intro record formula
  have hchars : formula.toList = ' ' :: (['2'] ++ ' ' :: (['-'] ++ ' ' ::
      ("\x7bvalue\x7d".toList ++ '\t' :: (['*'] ++ ' ' :: "\x7ba.b\x7d".toList)))) := by
    decide +kernel
  have hspaced : Spaced [['2'], ['-'], "\x7bvalue\x7d".toList, ['*'], "\x7ba.b\x7d".toList]
      formula.toList := by
    rw [hchars]
    exact .white rfl (.word _ rfl (.word _ rfl (.word _ rfl (.word _ rfl (.last _)))))
  let two : Leaf (.num (.int (-3))) record :=
    .numeral ['2'] 2 (by decide) (List.all_eq_true.mp rfl) (by decide +kernel)
  let three : Leaf (.num (.int (-3))) record :=
    .number "value".toList (.int (-3)) (by decide) (List.all_eq_true.mp rfl) rfl
      ⟨by decide, by decide⟩ (by decide +kernel)
  let half : Leaf (.num (.int (-3))) record :=
    .number "a.b".toList (.float 0.5) (by decide) (List.all_eq_true.mp rfl) rfl
      (show Decimal.isFinite 0.5 = true by decide +kernel) (by decide +kernel)
  let t : Derivation (Leaf (.num (.int (-3))) record) .sum :=
    .sum (.product (.leaf two) .noFactor)
      (.term .minus (.product (.leaf three) (.times .times (.leaf half) .noFactor)) .noTerm)
  have hvalue := (evaluate_substitute formula).1 (.num (.int (-3))) record t hspaced
  refine ⟨hspaced, by decide +kernel, (hvalue.2.1 3.5).mpr ⟨?_, ?_, ?_, ?_⟩⟩
  · decide +kernel
  · decide +kernel
  · decide +kernel
  · decide +kernel

end Formula
end Switchboard
