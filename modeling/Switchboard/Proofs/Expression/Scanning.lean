import Switchboard.Proofs.Decimal.Digits
import Switchboard.Proofs.Expression.Acceptance
import Switchboard.Proofs.Text.Classes

/-! How tokens are written, and that each is scanned whole whatever text comes after it, as long as
that text does not go on with it. -/
namespace Switchboard

namespace Expression
open Text (isWhite isMark)

theorem inRanges_of_startsName {rs : List (Nat × Nat)} (hl : Text.Apart Text.letterRanges rs)
    (hu : Text.inRanges rs '_'.toNat = false) {c : Char} (h : startsName c = true) :
    Text.inRanges rs c.toNat = false := by
  have h : Text.isLetter c = true ∨ c = '_' := by simpa [startsName] using h
  rcases h with h | rfl
  · exact hl.inRanges_eq_false h
  · exact hu

theorem isWhite_of_startsName {c : Char} (h : startsName c = true) : isWhite c = false :=
  inRanges_of_startsName Text.letters_apart_white (by decide) h

theorem isMark_of_startsName {c : Char} (h : startsName c = true) : isMark c = false :=
  inRanges_of_startsName Text.letters_apart_marks (by decide) h

theorem isDigit_of_startsName {c : Char} (h : startsName c = true) : c.isDigit = false := by
  rw [Text.isDigit_eq]
  exact inRanges_of_startsName Text.letters_apart_digits (by decide) h

theorem continuesName_of_inRanges {rs : List (Nat × Nat)} (hl : Text.Apart Text.letterRanges rs)
    (hn : Text.Apart Text.numeralRanges rs) (hu : Text.inRanges rs '_'.toNat = false) {c : Char}
    (h : Text.inRanges rs c.toNat = true) : continuesName c = false := by
  refine Bool.eq_false_iff.mpr fun hc => ?_
  have hc : Text.isLetter c = true ∨ Text.isNumeral c = true ∨ c = '_' := by
    simpa [continuesName, or_assoc] using hc
  have hout : Text.inRanges rs c.toNat = false := by
    rcases hc with hc | hc | rfl
    · exact hl.inRanges_eq_false hc
    · exact hn.inRanges_eq_false hc
    · exact hu
  rw [h] at hout
  cases hout

theorem continuesName_of_isWhite {c : Char} (h : isWhite c = true) : continuesName c = false :=
  continuesName_of_inRanges Text.letters_apart_white Text.numerals_apart_white (by decide) h

theorem continuesName_of_isMark {c : Char} (h : isMark c = true) : continuesName c = false :=
  continuesName_of_inRanges Text.letters_apart_marks Text.numerals_apart_marks (by decide) h

/-- The characters that are a token each. -/
def punctuation : List Char := ['$', '.', ',', ':', '(', ')', '[', ']', '\x7b', '\x7d']

theorem isMark_of_mem_punctuation {c : Char} (h : c ∈ punctuation) : isMark c = true := by
  have hall : punctuation.all isMark = true := by decide
  exact List.all_eq_true.mp hall c h

theorem punctuation?_eq_none {c : Char} (h : c ∉ punctuation) : punctuation? c = none := by
  simp only [punctuation, List.mem_cons, List.not_mem_nil, or_false, not_or] at h
  simp only [punctuation?, h, if_false]

theorem isWhite_of_punctuation? {c : Char} {t : Token} (h : punctuation? c = some t) :
    isWhite c = false := by
  by_cases hc : c ∈ punctuation
  · exact Text.isWhite_of_isMark (isMark_of_mem_punctuation hc)
  · rw [punctuation?_eq_none hc] at h
    cases h

/-- Nothing comes next, or a character that is not of the class. -/
def Stops (p : Char → Bool) (s : List Char) : Prop := ∀ c ∈ s.head?, p c = false

theorem Stops.cons {p : Char → Bool} {c : Char} (h : p c = false) (s : List Char) :
    Stops p (c :: s) := by
  rintro _ ⟨⟩
  exact h

theorem Stops.blank {p : Char → Bool} (hp : ∀ c, isWhite c = true → p c = false)
    {blank s : List Char} (hb : blank.all isWhite = true) (hs : Stops p s) :
    Stops p (blank ++ s) := by
  cases blank with
  | nil => exact hs
  | cons c blank => exact .cons (hp c (Bool.and_eq_true_iff.mp hb).1) _

/-- The characters that may follow an expression. -/
def breakers : List Char := [')', ',', ']', '\x7d']

/-- Nothing comes next, or what may follow an expression. -/
def Breaks (s : List Char) : Prop := ∀ c ∈ s.head?, c ∈ breakers

theorem Breaks.nil : Breaks [] := nofun

theorem Breaks.cons {c : Char} (h : c ∈ breakers) (s : List Char) : Breaks (c :: s) := by
  rintro _ ⟨⟩
  exact h

theorem Breaks.stops_name {s : List Char} (hs : Breaks s) : Stops continuesName s := by
  have hall : breakers.all isMark = true := by decide
  exact fun c hc => continuesName_of_isMark (List.all_eq_true.mp hall c (hs c hc))

theorem Breaks.stops_numeral {s : List Char} (hs : Breaks s) :
    Stops (fun c => c.isDigit || c == '.') s := by
  have hall : breakers.all (fun c => !(c.isDigit || c == '.')) = true := by decide
  intro c hc
  simpa using List.all_eq_true.mp hall c (hs c hc)

/-- Wherever the text starts, it is scanned into these tokens. -/
def Scans (s : List Char) (us : List Token) : Prop :=
  ∀ pos, ∃ ts, tokenize pos s = .ok ts ∧ Spells ts us

namespace Scans
variable {rest : List Char} {us : List Token}

theorem nil : Scans [] [] := fun _ => ⟨[], by rw [tokenize], rfl⟩

theorem white {c : Char} (hc : isWhite c = true) (h : Scans rest us) : Scans (c :: rest) us := by
  intro pos
  rw [tokenize, if_pos hc]
  exact h _

theorem blank {blank : List Char} (hb : blank.all isWhite = true) (h : Scans rest us) :
    Scans (blank ++ rest) us := by
  induction blank with
  | nil => exact h
  | cons c blank ih =>
    obtain ⟨hc, hb⟩ := Bool.and_eq_true_iff.mp hb
    exact white hc (ih hb)

theorem token {c : Char} {s : List Char} {t : Token} (hc : isWhite c = false)
    (ht : ∀ pos, scanToken pos c s = .ok (t, rest)) (h : Scans rest us) :
    Scans (c :: s) (t :: us) := by
  intro pos
  obtain ⟨ts, hts, hus⟩ := h (pos + Text.width (lexeme (c :: s) rest))
  rw [tokenize_cons hc (ht pos), hts]
  exact ⟨⟨t, pos⟩ :: ts, rfl, congrArg (t :: ·) hus⟩

theorem mark {c : Char} {t : Token} (ht : punctuation? c = some t) (h : Scans rest us) :
    Scans (c :: rest) (t :: us) :=
  token (isWhite_of_punctuation? ht) (fun pos => by rw [scanToken, ht]) h

end Scans

/-- A letter or an underscore, and then letters, numerals and underscores. -/
def isName (s : String) : Bool :=
  match s.toList with
  | [] => false
  | c :: cs => startsName c && cs.all continuesName

theorem isLetter_of_isLower {c : Char} (h : c.isLower = true) : Text.isLetter c = true := by
  obtain ⟨hlow, hhigh⟩ := Bool.and_eq_true_iff.mp h
  have hlow : 0x61 ≤ c.toNat := UInt32.le_iff_toNat_le.mp (of_decide_eq_true hlow)
  have hhigh : c.toNat ≤ 0x7A := UInt32.le_iff_toNat_le.mp (of_decide_eq_true hhigh)
  exact List.any_eq_true.mpr ⟨(0x61, 0x7A), .tail _ (.head _), by simp [hlow, hhigh]⟩

/-- Small letters of ASCII, as those that methods and constants are written in, make a name. -/
theorem isName_of_isLower {s : String}
    (h : (!s.toList.isEmpty && s.toList.all Char.isLower) = true) : isName s = true := by
  obtain ⟨hne, hall⟩ := Bool.and_eq_true_iff.mp h
  unfold isName
  cases hs : s.toList with
  | nil => simp [hs] at hne
  | cons c cs =>
    rw [hs, List.all_cons, Bool.and_eq_true_iff] at hall
    have hcs : cs.all continuesName = true := by
      refine List.all_eq_true.mpr fun d hd => ?_
      simp [continuesName, isLetter_of_isLower (List.all_eq_true.mp hall.2 d hd)]
    simp [startsName, isLetter_of_isLower hall.1, hcs]

theorem scanName_append_of_stops {cs rest : List Char} (h : cs.all continuesName = true)
    (hr : Stops continuesName rest) : scanName (cs ++ rest) = (cs, rest) := by
  induction cs with
  | nil =>
    cases rest with
    | nil => rfl
    | cons c rest =>
      have hc : continuesName c = false := hr c rfl
      simp [scanName, hc]
  | cons c cs ih =>
    obtain ⟨hc, hcs⟩ := Bool.and_eq_true_iff.mp h
    simp [scanName, hc, ih hcs]

theorem scanToken_name {c : Char} (hc : startsName c = true) (s : List Char) (pos : Nat) :
    scanToken pos c s = .ok (.name (String.ofList (c :: (scanName s).1)), (scanName s).2) := by
  have hmark := isMark_of_startsName hc
  have hpunct : punctuation? c = none :=
    punctuation?_eq_none fun hm => Text.ne_of_isMark hmark (isMark_of_mem_punctuation hm) rfl
  have hquote : ¬ (c = '"' ∨ c = '\'') :=
    not_or.mpr ⟨Text.ne_of_isMark hmark rfl, Text.ne_of_isMark hmark rfl⟩
  have hnumeral : ¬ (c = '-' ∨ c.isDigit = true) :=
    not_or.mpr ⟨Text.ne_of_isMark hmark rfl, by simp [isDigit_of_startsName hc]⟩
  rw [scanToken, hpunct]
  simp only
  rw [if_neg hquote, if_neg hnumeral, if_pos hc]

theorem Scans.name {rest : List Char} {us : List Token} {name : String} (hn : isName name = true)
    (hr : Stops continuesName rest) (h : Scans rest us) :
    Scans (name.toList ++ rest) (.name name :: us) := by
  unfold isName at hn
  split at hn
  · cases hn
  · rename_i c cs hcs
    obtain ⟨hc, hcont⟩ := Bool.and_eq_true_iff.mp hn
    have hname : String.ofList (c :: cs) = name := by rw [← hcs, String.ofList_toList]
    rw [hcs, List.cons_append]
    refine token (isWhite_of_startsName hc) (fun pos => ?_) h
    rw [scanToken_name hc, scanName_append_of_stops hcont hr, hname]

/-- Only quotes and backslashes are marked by a backslash. -/
def guarded (c : Char) : List Char := if c = '"' ∨ c = '\\' then ['\\', c] else [c]

def quote (s : String) : List Char := '"' :: s.toList.flatMap guarded ++ ['"']

theorem scanString_quoted (cs rest : List Char) :
    scanString '"' (cs.flatMap guarded ++ '"' :: rest) = some (cs, rest) := by
  induction cs with
  | nil =>
    rw [List.flatMap_nil, List.nil_append, scanString.eq_def]
    rfl
  | cons c cs ih =>
    rw [List.flatMap_cons, List.append_assoc, guarded]
    by_cases hc : c = '"' ∨ c = '\\'
    · have hu : unescape c = c := by
        rcases hc with rfl | rfl <;> rfl
      rw [if_pos hc, List.cons_append, List.singleton_append, scanString]
      simp [ih, hu]
    · obtain ⟨hq, hb⟩ := not_or.mp hc
      rw [if_neg hc, List.singleton_append, scanString.eq_def]
      simp [ih, hq, hb]

theorem Scans.text {rest : List Char} {us : List Token} (s : String) (h : Scans rest us) :
    Scans (quote s ++ rest) (.text s :: us) := by
  rw [quote, List.append_assoc, List.cons_append, List.singleton_append]
  refine token (by decide) (fun pos => ?_) h
  have hs := scanString_quoted s.toList rest
  rw [scanToken]
  simp only [show punctuation? '"' = none from rfl, true_or, if_true]
  rw [hs]
  simp only [String.ofList_toList]

theorem scanNumber_append_of_stops {ds rest : List Char} (h : ds.all Char.isDigit = true)
    (hr : Stops (fun c => c.isDigit || c == '.') rest) : scanNumber (ds ++ rest) = (ds, rest) := by
  induction ds with
  | nil =>
    cases rest with
    | nil => rfl
    | cons c rest =>
      obtain ⟨hd, hp⟩ := Bool.or_eq_false_iff.mp (hr c rfl)
      simp [scanNumber, hd, hp]
  | cons d ds ih =>
    obtain ⟨hd, hds⟩ := Bool.and_eq_true_iff.mp h
    simp [scanNumber, hd, ih hds]

theorem scanToken_numeral {c : Char} (hc : c = '-' ∨ c.isDigit = true) {ds rest : List Char}
    (hd : ds.all Char.isDigit = true) (hr : Stops (fun c => c.isDigit || c == '.') rest)
    {x : Float} (hx : Decimal.float? (c :: ds) = some x) (pos : Nat) :
    scanToken pos c (ds ++ rest) = .ok (.number x, rest) := by
  have hne : ∀ d, isMark d = true → d ≠ '-' → c ≠ d := by
    intro d hd hm
    rcases hc with rfl | hc
    · exact hm.symm
    · exact Text.ne_of_isMark (Text.isMark_of_isDigit hc) hd
  have hminus : '-' ∉ punctuation := by decide +kernel
  have hpunct : punctuation? c = none := punctuation?_eq_none fun hm =>
    hne c (isMark_of_mem_punctuation hm) (fun h => hminus (h ▸ hm)) rfl
  have hquote : ¬ (c = '"' ∨ c = '\'') :=
    not_or.mpr ⟨hne '"' rfl (by decide), hne '\'' rfl (by decide)⟩
  rw [scanToken, hpunct]
  simp only
  rw [if_neg hquote, if_pos hc, scanNumber_append_of_stops hd hr]
  simp only [hx]

theorem Scans.integer {rest : List Char} {us : List Token} {n : Int}
    (hn : n.natAbs < 9000000000000000) (hr : Stops (fun c => c.isDigit || c == '.') rest)
    (h : Scans rest us) :
    Scans (Number.chars (.int n) ++ rest) (.number (.ofInt n) :: us) := by
  have hx := Decimal.float?_chars (n := n) (by omega)
  have hall := Decimal.all_isDigit_digitsOf n.natAbs
  unfold Number.chars at hx ⊢
  simp only at hx ⊢
  split at hx
  · rw [List.singleton_append] at hx
    rw [if_pos ‹_›]
    exact token (by decide) (scanToken_numeral (.inl rfl) hall hr hx) h
  · rw [List.nil_append] at hx
    rw [if_neg ‹_›, List.nil_append]
    obtain ⟨d, ds, hds⟩ := List.exists_cons_of_ne_nil (Decimal.digitsOf_ne_nil n.natAbs)
    rw [hds] at hx hall ⊢
    obtain ⟨hd, hds⟩ := Bool.and_eq_true_iff.mp hall
    exact token (Text.isWhite_of_isDigit hd) (scanToken_numeral (.inr hd) hds hr hx) h

def Operator.symbol : Operator → List Char
  | eq => ['=', '=']
  | ne => ['!', '=']
  | strictEq => ['=', '=', '=']
  | strictNe => ['!', '=', '=']
  | gt => ['>']
  | ge => ['>', '=']
  | lt => ['<']
  | le => ['<', '=']
  | and => ['&', '&']
  | or => ['|', '|']

/-- The characters that an operator starts with. -/
def starters : List Char := ['=', '!', '>', '<', '&', '|']

theorem scanToken_operator {c : Char} (hc : c ∈ starters) {s rest : List Char} {t : Token}
    (h : operator? c s = some (t, rest)) (pos : Nat) : scanToken pos c s = .ok (t, rest) := by
  have hall : starters.all isMark = true := by decide
  have hmark : isMark c = true := List.all_eq_true.mp hall c hc
  have hname : startsName c = false := by
    refine Bool.eq_false_iff.mpr fun hs => ?_
    rw [isMark_of_startsName hs] at hmark
    cases hmark
  have hdigit : c.isDigit = false := by
    refine Bool.eq_false_iff.mpr fun hd => ?_
    rw [Text.isMark_of_isDigit hd] at hmark
    cases hmark
  simp only [starters, List.mem_cons, List.not_mem_nil, or_false] at hc
  rcases hc with rfl | rfl | rfl | rfl | rfl | rfl <;>
    simp [scanToken, punctuation?, hdigit, hname, h]

namespace Scans
variable {rest : List Char} {us : List Token}

theorem arrow (h : Scans rest us) : Scans ('=' :: '>' :: rest) (.arrow :: us) :=
  token (by decide) (scanToken_operator (by decide) rfl) h

theorem not (hr : Stops (· == '=') rest) (h : Scans rest us) :
    Scans ('!' :: rest) (.not :: us) := by
  refine token (by decide) (scanToken_operator (by decide) ?_) h
  cases rest with
  | nil => rfl
  | cons c rest =>
    have hc : c ≠ '=' := by simpa using hr c rfl
    simp [operator?, hc]

/-- A longer operator would go on with `=`. -/
theorem operator (o : Operator) (hr : Stops (· == '=') rest) (h : Scans rest us) :
    Scans (o.symbol ++ rest) (.op o :: us) := by
  have hne : ∀ r, rest ≠ '=' :: r := by
    rintro r rfl
    simpa using hr '=' rfl
  cases o <;> refine token (by decide) (scanToken_operator (by decide) ?_) h <;>
    simp [operator?]

end Scans

end Expression
end Switchboard
