import Mathlib.Data.List.Forall2
import Switchboard.Proofs.Expression.Lookahead

/-! A text as its lexemes, one for each token, and the white space around them. Nothing else is in
it, and more white space between lexemes changes no token. -/
namespace Switchboard.Expression
open Text (isWhite width)

/-- Characters that are scanned whole into a token. White space neither starts nor ends them. -/
structure Lexeme where
  first : Char
  others : List Char
  token : Token
  starts : isWhite first = false
  ends : ∀ c ∈ (first :: others).getLast?, isWhite c = false
  scans : ∀ pos, scanToken pos first others = .ok (token, [])

/-- White space and the lexeme after it. -/
structure Piece where
  blank : List Char
  lexeme : Lexeme
  white : blank.all isWhite = true

namespace Lexeme

def chars (l : Lexeme) : List Char := l.first :: l.others

/-- The token ends before `rest`. -/
def Before (l : Lexeme) (rest : List Char) : Prop :=
  ∀ pos, scanToken pos l.first (l.others ++ rest) = .ok (l.token, rest)

theorem tokenize_append {l : Lexeme} {rest : List Char} (h : l.Before rest) (pos : Nat) :
    tokenize pos (l.chars ++ rest) =
      (tokenize (pos + width l.chars) rest).map (⟨l.token, pos⟩ :: ·) := by
  have hlexeme : lexeme (l.chars ++ rest) rest = l.chars := by simp [lexeme]
  rw [chars, List.cons_append, tokenize_cons l.starts (h pos), ← List.cons_append, ← chars, hlexeme]

/-- Alone, a lexeme is a text of one token. -/
theorem tokenize_chars (l : Lexeme) (pos : Nat) : tokenize pos l.chars = .ok [⟨l.token, pos⟩] := by
  have h : l.Before [] := fun pos => by rw [List.append_nil]; exact l.scans pos
  have hl := l.tokenize_append h pos
  rw [List.append_nil, tokenize] at hl
  exact hl

theorem Before.spaced {l : Lexeme} {rest rest' : List Char} (h : l.Before rest)
    (hs : Spaced rest rest') : l.Before rest' := by
  obtain ⟨r, hr, -, hsplit⟩ := scanToken_split l.starts (h 0)
  obtain rfl := List.append_cancel_right hr
  exact fun pos => hsplit pos rest' hs

end Lexeme

/-- The text of the pieces, and what comes after them. -/
def textOf : List Piece → List Char → List Char
  | [], tail => tail
  | p :: ps, tail => p.blank ++ (p.lexeme.chars ++ textOf ps tail)

/-- The tokens of the pieces, each at the place of its lexeme in a text that starts at `pos`. -/
def located (pos : Nat) : List Piece → List Located
  | [] => []
  | p :: ps =>
    ⟨p.lexeme.token, pos + width p.blank⟩ ::
      located (pos + width p.blank + width p.lexeme.chars) ps

/-- Each token ends with its lexeme. -/
def Fits (tail : List Char) : List Piece → Prop
  | [] => True
  | p :: ps => p.lexeme.Before (textOf ps tail) ∧ Fits tail ps

theorem tokenize_blank {blank : List Char} (h : blank.all isWhite = true) (pos : Nat)
    (s : List Char) : tokenize pos (blank ++ s) = tokenize (pos + width blank) s := by
  induction blank generalizing pos with
  | nil => rfl
  | cons c blank ih =>
    obtain ⟨hc, hblank⟩ := Bool.and_eq_true_iff.mp h
    rw [List.cons_append, tokenize, if_pos hc, ih hblank, width, Nat.add_assoc]

theorem tokenize_textOf {ps : List Piece} {tail : List Char} (h : Fits tail ps)
    (ht : tail.all isWhite = true) (pos : Nat) :
    tokenize pos (textOf ps tail) = .ok (located pos ps) := by
  induction ps generalizing pos with
  | nil =>
    rw [textOf, ← List.append_nil tail, tokenize_blank ht, tokenize]
    rfl
  | cons p ps ih =>
    rw [textOf, tokenize_blank p.white, p.lexeme.tokenize_append h.1, ih h.2]
    rfl

/-- Each text that is scanned is one of pieces. -/
theorem exists_pieces {pos : Nat} {s : List Char} {ts : List Located}
    (h : tokenize pos s = .ok ts) :
    ∃ ps tail, s = textOf ps tail ∧ tail.all isWhite = true ∧ Fits tail ps := by
  fun_induction tokenize pos s generalizing ts with
  | case1 => exact ⟨[], [], rfl, rfl, trivial⟩
  | case2 pos c s hc ih =>
    obtain ⟨ps, tail, rfl, htail, hfits⟩ := ih h
    cases ps with
    | nil => exact ⟨[], c :: tail, rfl, Bool.and_eq_true_iff.mpr ⟨hc, htail⟩, trivial⟩
    | cons p ps =>
      have hwhite : (c :: p.blank).all isWhite = true := Bool.and_eq_true_iff.mpr ⟨hc, p.white⟩
      exact ⟨⟨c :: p.blank, p.lexeme, hwhite⟩ :: ps, tail, rfl, htail, hfits⟩
  | case3 => cases h
  | case4 => cases h
  | case5 pos c s hc t rest hscan hlen us hus ih =>
    have hc := Bool.eq_false_iff.mpr hc
    obtain ⟨r, rfl, hends, hsplit⟩ := scanToken_split hc hscan
    obtain ⟨ps, tail, rfl, htail, hfits⟩ := ih hus
    have hscans (pos : Nat) : scanToken pos c r = .ok (t, []) := by
      have halone := hsplit pos [] (Spaced.nil _)
      rwa [List.append_nil] at halone
    refine ⟨⟨[], ⟨c, r, t, hc, hends, hscans⟩, rfl⟩ :: ps, tail, rfl, htail, ?_, hfits⟩
    exact fun pos => hsplit pos _ (Spaced.refl _)

/-- The same lexemes, where white space may have come in before each but has nowhere gone away. -/
def Respaced (ps qs : List Piece) : Prop :=
  List.Forall₂ (fun p q => q.lexeme = p.lexeme ∧ (q.blank = [] → p.blank = [])) ps qs

theorem head?_blank {blank : List Char} (h : blank.all isWhite = true) (hne : blank ≠ [])
    (s : List Char) : ∀ c ∈ (blank ++ s).head?, isWhite c = true := by
  cases blank with
  | nil => exact absurd rfl hne
  | cons c blank =>
    rintro _ ⟨⟩
    exact (Bool.and_eq_true_iff.mp h).1

theorem Respaced.spaced {ps qs : List Piece} (h : Respaced ps qs) {tail tail' : List Char}
    (ht : tail'.all isWhite = true) : Spaced (textOf ps tail) (textOf qs tail') := by
  induction h with
  | nil =>
    refine .of_white (fun c hc => ?_) tail
    exact List.all_eq_true.mp ht c (List.mem_of_mem_head? hc)
  | @cons p q ps qs hpq _ ih =>
    obtain ⟨hlexeme, hblank⟩ := hpq
    by_cases hq : q.blank = []
    · rw [textOf, textOf, hq, hblank hq, hlexeme]
      exact .cons _ (ih.heads.append_left p.lexeme.others)
    · exact .of_white (head?_blank q.white hq _) _

theorem Respaced.fits {ps qs : List Piece} (h : Respaced ps qs) {tail tail' : List Char}
    (ht : tail'.all isWhite = true) (hf : Fits tail ps) : Fits tail' qs := by
  induction h with
  | nil => trivial
  | cons hpq hpqs ih =>
    refine ⟨?_, ih hf.2⟩
    rw [hpq.1]
    exact hf.1.spaced (Respaced.spaced hpqs ht)

theorem Respaced.map_token {ps qs : List Piece} (h : Respaced ps qs) (pos pos' : Nat) :
    (located pos' qs).map (·.token) = (located pos ps).map (·.token) := by
  induction h generalizing pos pos' with
  | nil => rfl
  | cons hpq _ ih =>
    rw [located, located, List.map_cons, List.map_cons, hpq.1]
    exact congrArg _ (ih _ _)

theorem Lexeme.width_pos (l : Lexeme) : 0 < width l.chars :=
  Nat.add_pos_left l.first.utf8Size_pos _

theorem le_of_mem_located {ps : List Piece} {pos : Nat} {t : Located} (h : t ∈ located pos ps) :
    pos ≤ t.pos := by
  induction ps generalizing pos with
  | nil => cases h
  | cons p ps ih =>
    rcases List.mem_cons.mp h with rfl | h
    · exact Nat.le_add_right _ _
    · exact Nat.le_trans (by omega) (ih h)

theorem pairwise_located (pos : Nat) (ps : List Piece) :
    (located pos ps).Pairwise fun t u => t.pos < u.pos := by
  induction ps generalizing pos with
  | nil => exact .nil
  | cons p ps ih =>
    refine .cons (fun t ht => ?_) (ih _)
    have hle := le_of_mem_located ht
    have hpos := p.lexeme.width_pos
    show pos + width p.blank < t.pos
    omega

/-- Before each token of the text stand as many bytes as its place says. -/
theorem exists_before_of_mem_located {ps : List Piece} {pos : Nat} {t : Located}
    (h : t ∈ located pos ps) (tail : List Char) :
    ∃ before, ∃ p ∈ ps, ∃ after, textOf ps tail = before ++ (p.lexeme.chars ++ after) ∧
      t = ⟨p.lexeme.token, pos + width before⟩ := by
  induction ps generalizing pos with
  | nil => cases h
  | cons p ps ih =>
    rcases List.mem_cons.mp h with rfl | h
    · exact ⟨p.blank, p, .head _, textOf ps tail, rfl, rfl⟩
    · obtain ⟨before, q, hq, after, htext, rfl⟩ := ih h
      refine ⟨p.blank ++ (p.lexeme.chars ++ before), q, .tail _ hq, after, ?_, ?_⟩
      · rw [textOf, htext]
        simp only [List.append_assoc]
      · simp only [Text.width_append, Nat.add_assoc]

/-- A text that is scanned consists of lexemes and white space around them. Tokens stand where their
lexemes start, each further on than the one before it. A lexeme alone is scanned into its token, and
with more white space between them, all lexemes are scanned into the same tokens. -/
theorem tokenize_lexemes {s : List Char} {ts : List Located} (h : tokenize 0 s = .ok ts) :
    ∃ (ps : List Piece) (tail : List Char),
      s = textOf ps tail ∧ tail.all isWhite = true ∧ ts = located 0 ps ∧
      ts.Pairwise (fun t u => t.pos < u.pos) ∧
      (∀ t ∈ ts, ∃ before, ∃ p ∈ ps, ∃ after, s = before ++ (p.lexeme.chars ++ after) ∧
        t = ⟨p.lexeme.token, width before⟩) ∧
      (∀ p ∈ ps, tokenize 0 p.lexeme.chars = .ok [⟨p.lexeme.token, 0⟩]) ∧
      ∀ qs tail', Respaced ps qs → tail'.all isWhite = true →
        tokenize 0 (textOf qs tail') = .ok (located 0 qs) ∧
          (located 0 qs).map (·.token) = ts.map (·.token) := by
  obtain ⟨ps, tail, rfl, htail, hfits⟩ := exists_pieces h
  rw [tokenize_textOf hfits htail] at h
  obtain rfl := Except.ok.inj h
  refine ⟨ps, tail, rfl, htail, rfl, pairwise_located 0 ps, fun t ht => ?_,
    fun p _ => p.lexeme.tokenize_chars 0, fun qs tail' hqs htail' => ?_⟩
  · obtain ⟨before, p, hp, after, htext, rfl⟩ := exists_before_of_mem_located ht tail
    exact ⟨before, p, hp, after, htext, by rw [Nat.zero_add]⟩
  · exact ⟨tokenize_textOf (hqs.fits htail' hfits) htail' 0, hqs.map_token 0 0⟩

theorem tokenize_lexemes_wide :
    tokenize 0 "\u00e9!=='=>'".toList =
        .ok [⟨.name "\u00e9", 0⟩, ⟨.op .strictNe, 2⟩, ⟨.text "=>", 5⟩] ∧
      ∃ (ps : List Piece) (tail : List Char),
        "\u00e9!=='=>'".toList = textOf ps tail ∧
          [⟨.name "\u00e9", 0⟩, ⟨.op .strictNe, 2⟩, ⟨.text "=>", 5⟩] = located 0 ps ∧
          ∀ qs tail', Respaced ps qs → tail'.all isWhite = true →
            tokenize 0 (textOf qs tail') = .ok (located 0 qs) ∧
              (located 0 qs).map (·.token) = [.name "\u00e9", .op .strictNe, .text "=>"] := by
  have hs : tokenize 0 "\u00e9!=='=>'".toList =
      .ok [⟨.name "\u00e9", 0⟩, ⟨.op .strictNe, 2⟩, ⟨.text "=>", 5⟩] := by
    have hlist : "\u00e9!=='=>'".toList =
        '\u00e9' :: '!' :: ['=', '=', '\'', '=', '>', '\''] := by rfl
    have hscan : scanName ('!' :: ['=', '=', '\'', '=', '>', '\'']) =
        ([], '!' :: ['=', '=', '\'', '=', '>', '\'']) :=
      @scanName_append_of_stops [] _ rfl (.cons (continuesName_of_isMark rfl) _)
    have hname : scanToken 0 '\u00e9' ('!' :: ['=', '=', '\'', '=', '>', '\'']) =
        .ok (.name "\u00e9", '!' :: ['=', '=', '\'', '=', '>', '\'']) := by
      rw [scanToken_name (by decide +kernel), hscan]
    rw [hlist, tokenize_cons (by decide +kernel) hname,
      tokenize_cons (by decide) (scanToken_operator (by decide) rfl _),
      tokenize_cons (by decide) rfl, tokenize]
    rfl
  obtain ⟨ps, tail, htext, -, hlocated, -, -, -, hrespaced⟩ := tokenize_lexemes hs
  exact ⟨hs, ps, tail, htext, hlocated, hrespaced⟩

end Switchboard.Expression
