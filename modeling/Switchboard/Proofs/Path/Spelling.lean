import Switchboard.Proofs.Path.Frame
import Switchboard.Proofs.Text.Ends

/-! Spellings of a path. A segment may be written behind a point, in brackets, or in brackets and
quotes; the root may be left out, and so may the first point. All of them are read as the same
path. -/
namespace Switchboard

namespace Segment

/-- The characters that part segments. -/
def isSign (c : Char) : Bool := c == '.' || c == '[' || c == ']' || c == '\'' || c == '"'

/-- A name that can stand in any spelling. -/
structure Fits (name : List Char) : Prop where
  bounded : Text.Bounded Text.isWhite name
  plain : name.any isSign = false
  head_ne : name.head? ≠ some '$'

instance (name : List Char) : Decidable (Fits name) :=
  decidable_of_iff (Text.Bounded Text.isWhite name ∧ name.any isSign = false ∧
      name.head? ≠ some '$')
    ⟨fun h => ⟨h.1, h.2.1, h.2.2⟩, fun h => ⟨h.bounded, h.plain, h.head_ne⟩⟩

theorem Fits.ne {name : List Char} (h : Fits name) {c d : Char} (hc : c ∈ name)
    (hd : isSign d = true) : c ≠ d := by
  rintro rfl
  exact List.any_eq_false.mp h.plain c hc hd

/-- A segment that any spelling can write: an index of 64 bits, or a key that fits and writes no
such index. -/
def IsPlain : Segment → Prop
  | .key k => Fits k.toList ∧ indexOf? k.toList = none
  | .index i => i < 0x10000000000000000

instance : (s : Segment) → Decidable s.IsPlain
  | .key k => inferInstanceAs (Decidable (Fits k.toList ∧ indexOf? k.toList = none))
  | .index i => inferInstanceAs (Decidable (i < 0x10000000000000000))

theorem any_isSign_of_isMark {name : List Char} (h : ∀ c ∈ name, Text.isMark c = false) :
    name.any isSign = false := by
  refine List.any_eq_false.mpr fun c hc hsign => ?_
  simp only [isSign, Bool.or_eq_true, beq_iff_eq] at hsign
  rcases hsign with (((rfl | rfl) | rfl) | rfl) | rfl <;> exact absurd (h _ hc) (by decide)

/-- Digits are characters like any other. -/
theorem fits_toString (i : Nat) : Fits (toString i).toList := by
  have hdigits : (toString i).toList = Decimal.digitsOf i := by simp [Decimal.digitsOf]
  have hall : ∀ c ∈ Decimal.digitsOf i, c.isDigit = true :=
    List.all_eq_true.mp (Decimal.all_isDigit_digitsOf i)
  have hmark : ∀ c ∈ Decimal.digitsOf i, Text.isMark c = false :=
    fun c hc => Text.isMark_of_isDigit (hall c hc)
  rw [hdigits]
  refine ⟨.of_forall (Decimal.digitsOf_ne_nil i) fun c hc => Text.isWhite_of_isDigit (hall c hc),
    any_isSign_of_isMark hmark, fun hd => ?_⟩
  exact Text.ne_of_isMark (hmark _ (List.mem_of_mem_head? hd)) rfl rfl

theorem IsPlain.fits {s : Segment} (h : s.IsPlain) : Fits s.name.toList := by
  cases s with
  | key k => exact h.1
  | index i => exact fits_toString i

/-- A segment is what its name addresses. -/
theorem IsPlain.ofText_name {s : Segment} (h : s.IsPlain) : ofText s.name.toList = [s] := by
  cases s with
  | key k =>
    rw [ofText, name, h.2]
    simp only
    rw [if_neg h.1.bounded.ne_nil, String.ofList_toList]
  | index i => rw [ofText, name, indexOf?_toString h]

end Segment

namespace Path

/-- What stands around a name in brackets. -/
inductive Quotes where
  | none
  | single
  | double

def Quotes.text : Quotes → List Char
  | none => []
  | single => ['\'']
  | double => ['"']

/-- The ways to write a segment. -/
inductive Form where
  | point
  | bracket (q : Quotes)

def Form.write : Form → Segment → List Char
  | point, s => '.' :: s.name.toList
  | bracket q, s => '[' :: (q.text ++ (s.name.toList ++ (q.text ++ [']'])))

/-- Segments one behind the other, each in its form. -/
def spelled (ps : List (Form × Segment)) : List Char := ps.flatMap fun p => p.1.write p.2

/-- The signs of the root. -/
def roots : List (List Char) := [[], ['$'], ['$', '.']]

theorem isQuote_of_mem_text {q : Quotes} {c : Char} (h : c ∈ q.text) : isQuote c = true := by
  cases q with
  | none => cases h
  | single => rw [List.mem_singleton.mp h]; rfl
  | double => rw [List.mem_singleton.mp h]; rfl

theorem all_isMark_text (q : Quotes) : q.text.all Text.isMark = true := by cases q <;> rfl

/-- Characters without a meaning of their own belong to the segment at hand. -/
theorem segments_append {cs : List Char} (h : ∀ c ∈ cs, c ≠ '.' ∧ c ≠ '[') (current s : List Char) :
    segments false current (cs ++ s) = segments false (current ++ cs) s := by
  induction cs generalizing current with
  | nil => rw [List.nil_append, List.append_nil]
  | cons c cs ih =>
    obtain ⟨⟨hdot, hbracket⟩, hcs⟩ := List.forall_mem_cons.mp h
    rw [List.cons_append, segments]
    simp only [Bool.false_eq_true, if_false, hdot, hbracket]
    rw [ih hcs, List.append_assoc, List.singleton_append]

/-- What stands in brackets is read up to their end. -/
theorem segments_inside {inner : List Char} (h : ∀ c ∈ inner, c ≠ ']') (current s : List Char) :
    segments true current (inner ++ ']' :: s) =
      bracketed (current ++ inner) ++ segments false [] s := by
  induction inner generalizing current with
  | nil => simp [segments]
  | cons c inner ih =>
    obtain ⟨hc, hinner⟩ := List.forall_mem_cons.mp h
    rw [List.cons_append, segments]
    simp only [if_true, hc, if_false]
    rw [ih hinner, List.append_assoc, List.singleton_append]

/-- A name in brackets, with quotes around it or none. -/
theorem bracketed_quoted {s : Segment} (h : s.IsPlain) (q : Quotes) :
    bracketed (q.text ++ (s.name.toList ++ q.text)) = [s] := by
  have hname : Text.Bounded isQuote s.name.toList := by
    refine .of_forall h.fits.bounded.ne_nil fun c hc => ?_
    simp [isQuote, h.fits.ne hc (d := '"') rfl, h.fits.ne hc (d := '\'') rfl]
  have htrim : Text.trim (q.text ++ s.name.toList ++ q.text) =
      q.text ++ s.name.toList ++ q.text := by
    refine Text.trim_eq_self ?_
    rcases eq_or_ne q.text [] with hnil | hne
    · rw [hnil, List.nil_append, List.append_nil]
      exact h.fits.bounded
    · have hends := Text.bounded_of_isMark hne (all_isMark_text q)
      exact (hends.append h.fits.bounded).append hends
  rw [bracketed, ← List.append_assoc, htrim]
  exact (congrArg Segment.ofText (hname.strip (fun _ => isQuote_of_mem_text)
    fun _ => isQuote_of_mem_text)).trans h.ofText_name

/-- A segment behind a point ends the one before it. -/
theorem segments_point {s : Segment} (h : s.IsPlain) (current rest : List Char) :
    segments false current (Form.point.write s ++ rest) =
      Segment.ofText current ++ segments false s.name.toList rest := by
  have hname : segments false [] (s.name.toList ++ rest) = segments false s.name.toList rest :=
    segments_append (fun c hc => ⟨h.fits.ne hc rfl, h.fits.ne hc rfl⟩) [] rest
  rw [Form.write, List.cons_append, segments]
  simp only [Bool.false_eq_true, if_false, if_true]
  rw [hname]

/-- A segment in brackets ends the one before it, and ends itself. -/
theorem segments_bracket {s : Segment} (h : s.IsPlain) (q : Quotes) (current rest : List Char) :
    segments false current ((Form.bracket q).write s ++ rest) =
      Segment.ofText current ++ s :: segments false [] rest := by
  have hquotes : ∀ c ∈ q.text, c ≠ ']' := by
    rintro c hc rfl
    exact absurd (isQuote_of_mem_text hc) (by decide)
  have hname : ∀ c ∈ s.name.toList, c ≠ ']' := fun c hc => h.fits.ne hc rfl
  have hread := segments_inside
    (List.forall_mem_append.mpr ⟨hquotes, List.forall_mem_append.mpr ⟨hname, hquotes⟩⟩) [] rest
  rw [List.nil_append, bracketed_quoted h] at hread
  simp only [List.append_assoc] at hread
  simp only [Form.write, List.cons_append, List.append_assoc, List.nil_append]
  rw [segments]
  simp only [Bool.false_eq_true, if_false, if_true, Char.reduceEq]
  rw [hread]
  rfl

/-- Segments are read in whatever forms they have, after one that has not ended yet. -/
theorem segments_spelled {ps : List (Form × Segment)} (h : ∀ p ∈ ps, p.2.IsPlain)
    (current : List Char) :
    segments false current (spelled ps) = Segment.ofText current ++ ps.map (·.2) := by
  induction ps generalizing current with
  | nil => rw [List.map_nil, List.append_nil]; rfl
  | cons p ps ih =>
    obtain ⟨f, s⟩ := p
    obtain ⟨hs, hps⟩ := List.forall_mem_cons.mp h
    have hcons : spelled ((f, s) :: ps) = f.write s ++ spelled ps := rfl
    rw [hcons]
    cases f with
    | point =>
      rw [segments_point hs, ih hps, hs.ofText_name]
      rfl
    | bracket q =>
      rw [segments_bracket hs, ih hps]
      rfl

theorem bounded_write (f : Form) {s : Segment} (h : s.IsPlain) :
    Text.Bounded Text.isWhite (f.write s) := by
  cases f with
  | point =>
    exact (Text.bounded_of_isMark (s := ['.']) (List.cons_ne_nil _ _) rfl).append h.fits.bounded
  | bracket q =>
    have hends := (Text.bounded_of_isMark (s := ['[']) (List.cons_ne_nil _ _) rfl).around
      (Text.bounded_of_isMark (s := [']']) (List.cons_ne_nil _ _) rfl)
      (q.text ++ (s.name.toList ++ q.text))
    simpa only [Form.write, List.append_assoc, List.singleton_append] using hends

theorem bounded_append_spelled {t : List Char} (ht : Text.Bounded Text.isWhite t)
    {ps : List (Form × Segment)} (h : ∀ p ∈ ps, p.2.IsPlain) :
    Text.Bounded Text.isWhite (t ++ spelled ps) := by
  induction ps generalizing t with
  | nil => rwa [spelled, List.flatMap_nil, List.append_nil]
  | cons p ps ih =>
    obtain ⟨hp, hps⟩ := List.forall_mem_cons.mp h
    rw [spelled, List.flatMap_cons, ← List.append_assoc]
    exact ih (ht.append (bounded_write p.1 hp)) hps

/-- A text that no sign of the root begins, not even behind its first point. -/
def Rootless (text : List Char) : Prop :=
  ∃ c t, text = c :: t ∧ c ≠ '$' ∧ (c = '.' → t.head? ≠ some '$')

theorem dropRootDots_of_ne {c : Char} (h : c ≠ '$') (s : List Char) :
    dropRootDots (c :: s) = c :: s := by
  rw [dropRootDots.eq_def]
  split
  · rename_i heq
    exact absurd (List.cons.inj heq).1 h
  · rfl

theorem dropRootDots_of_head {s : List Char} (h : s.head? ≠ some '$') :
    (dropRootDots s).dropWhile (· = '$') = s := by
  cases s with
  | nil => rfl
  | cons c s =>
    have hc : c ≠ '$' := fun heq => h (congrArg some heq)
    rw [dropRootDots_of_ne hc, List.dropWhile_cons_of_neg (by simpa using hc)]

/-- A sign of the root adds no segment. -/
theorem segments_root {text : List Char} (h : Rootless text) {root : List Char}
    (hroot : root ∈ roots) :
    segments false [] ((dropRootDots (root ++ text)).dropWhile (· = '$')) =
      segments false [] text := by
  obtain ⟨c, t, rfl, hc, ht⟩ := h
  have hplain : (dropRootDots (c :: t)).dropWhile (· = '$') = c :: t :=
    dropRootDots_of_head fun heq => hc (Option.some.inj heq)
  simp only [roots, List.mem_cons, List.not_mem_nil, or_false] at hroot
  rcases hroot with rfl | rfl | rfl
  · rw [List.nil_append, hplain]
  · by_cases hdot : c = '.'
    · subst hdot
      have hskip : dropRootDots ('$' :: '.' :: t) = dropRootDots t := by rw [dropRootDots]
      have hempty : Segment.ofText [] = [] := rfl
      rw [List.singleton_append, hskip, dropRootDots_of_head (ht rfl), segments]
      simp only [Bool.false_eq_true, if_false, if_true, hempty, List.nil_append]
    · have hkeep : dropRootDots ('$' :: c :: t) = '$' :: c :: t := by
        rw [dropRootDots.eq_def]
        split
        · rename_i heq
          exact absurd (List.cons.inj (List.cons.inj heq).2).1 hdot
        · rfl
      rw [List.singleton_append, hkeep, List.dropWhile_cons_of_pos (by simp),
        List.dropWhile_cons_of_neg (by simpa using hc)]
  · have hskip : dropRootDots (['$', '.'] ++ c :: t) = dropRootDots (c :: t) := by
      rw [List.cons_append, List.singleton_append, dropRootDots]
    rw [hskip, hplain]

/-- The first point may be left out. -/
theorem spelled_opening {p : Form × Segment} {ps : List (Form × Segment)}
    (h : ∀ x ∈ p :: ps, x.2.IsPlain) {text : List Char}
    (htext : text = spelled (p :: ps) ∨ '.' :: text = spelled (p :: ps)) :
    Text.Bounded Text.isWhite text ∧ Rootless text := by
  obtain ⟨f, s⟩ := p
  obtain ⟨hs, hps⟩ := List.forall_mem_cons.mp h
  have hs : s.IsPlain := hs
  have hcons : spelled ((f, s) :: ps) = f.write s ++ spelled ps := rfl
  obtain ⟨c, t, hct⟩ := List.exists_cons_of_ne_nil hs.fits.bounded.ne_nil
  have hroot : c ≠ '$' := fun heq => hs.fits.head_ne (by rw [hct, heq]; rfl)
  have hpoint : c ≠ '.' := hs.fits.ne (by rw [hct]; exact List.mem_cons_self) rfl
  rw [hcons] at htext
  rcases htext with rfl | htext
  · refine ⟨bounded_append_spelled (bounded_write f hs) hps, ?_⟩
    cases f with
    | point =>
      refine ⟨'.', s.name.toList ++ spelled ps, rfl, by decide, fun _ heq => hroot ?_⟩
      rw [hct] at heq
      exact Option.some.inj heq
    | bracket q => exact ⟨'[', _, rfl, by decide, fun hdot => absurd hdot (by decide)⟩
  · cases f with
    | point =>
      obtain rfl : text = s.name.toList ++ spelled ps := (List.cons.inj htext).2
      exact ⟨bounded_append_spelled hs.fits.bounded hps, c, t ++ spelled ps, by rw [hct]; rfl,
        hroot, fun heq => absurd heq hpoint⟩
    | bracket q => exact absurd (List.cons.inj htext).1 (by decide)

/-- A path is read behind any sign of its root, and with white space around. -/
theorem ofChars_rootless {root text front back : List Char} (hb : Text.Bounded Text.isWhite text)
    (h : Rootless text) (hroot : root ∈ roots) (hfront : ∀ c ∈ front, Text.isWhite c = true)
    (hback : ∀ c ∈ back, Text.isWhite c = true) :
    ofChars (front ++ (root ++ text) ++ back) = segments false [] text := by
  have hboth : Text.Bounded Text.isWhite (root ++ text) := by
    have hmarks : root.all Text.isMark = true := by
      revert root
      decide
    rcases eq_or_ne root [] with rfl | hsigns
    · exact hb
    · exact (Text.bounded_of_isMark hsigns hmarks).append hb
  rw [ofChars, Text.trim_padded hboth hfront hback, segments_root h hroot]

/-- A path with all its points. -/
theorem ofChars_spelled {ps : List (Form × Segment)} (hne : ps ≠ [])
    (h : ∀ p ∈ ps, p.2.IsPlain) {root : List Char} (hroot : root ∈ roots) :
    ofChars (root ++ spelled ps) = ps.map (·.2) := by
  obtain ⟨p, ps, rfl⟩ := List.exists_cons_of_ne_nil hne
  obtain ⟨hbounded, hrootless⟩ := spelled_opening h (.inl rfl)
  have hread : ofChars ([] ++ (root ++ spelled (p :: ps)) ++ []) =
      segments false [] (spelled (p :: ps)) :=
    ofChars_rootless hbounded hrootless hroot nofun nofun
  rw [List.nil_append, List.append_nil, segments_spelled h] at hread
  exact hread

/-- Segments in all forms, the first one behind a point. -/
def Sample.mixed : List (Form × Segment) :=
  [(.point, .key "18446744073709551616"), (.bracket .single, .key "a $"),
    (.bracket .none, .index 18446744073709551615), (.point, .index 0), (.bracket .double, .key "ß")]

/-- Every spelling of a path is read as that path: each segment in a form of its own, the first
point there or not, with a sign of the root or none, and white space around. -/
theorem parse_spelling {ps : List (Form × Segment)} (hne : ps ≠ []) (h : ∀ p ∈ ps, p.2.IsPlain)
    {root text front back : List Char} (hroot : root ∈ roots)
    (htext : text = spelled ps ∨ '.' :: text = spelled ps)
    (hfront : ∀ c ∈ front, Text.isWhite c = true) (hback : ∀ c ∈ back, Text.isWhite c = true) :
    parse (String.ofList (front ++ (root ++ text) ++ back)) = ps.map (·.2) := by
  obtain ⟨p, ps, rfl⟩ := List.exists_cons_of_ne_nil hne
  obtain ⟨hbounded, hrootless⟩ := spelled_opening h htext
  have hread : segments false [] text = segments false [] (spelled (p :: ps)) := by
    rcases htext with rfl | htext
    · rfl
    · have hempty : Segment.ofText [] = [] := rfl
      rw [← htext, segments.eq_2]
      simp only [Bool.false_eq_true, if_false, if_true, hempty, List.nil_append]
  rw [parse, String.toList_ofList, ofChars_rootless hbounded hrootless hroot hfront hback, hread,
    segments_spelled h]
  rfl

/-- A key of figures that are too many for an index, one with the sign of the root and a blank
inside, and two indexes, in all forms. -/
theorem parse_spelling_mixed :
    (∀ p ∈ Sample.mixed, p.2.IsPlain) ∧
      parse " $18446744073709551616['a $'][18446744073709551615].0[\"ß\"]\n" =
        [.key "18446744073709551616", .key "a $", .index 18446744073709551615, .index 0,
          .key "ß"] := by
  have hplain : ∀ p ∈ Sample.mixed, p.2.IsPlain := by decide +kernel
  have hmissing : '.' :: (spelled Sample.mixed).tail = spelled Sample.mixed := by decide
  have hread : parse (String.ofList ([' '] ++ (['$'] ++ (spelled Sample.mixed).tail) ++ ['\n'])) =
      Sample.mixed.map (·.2) :=
    parse_spelling (by decide) hplain (by decide) (.inr hmissing)
      (List.forall_mem_singleton.mpr rfl) (List.forall_mem_singleton.mpr rfl)
  exact ⟨hplain, hread⟩

end Path
end Switchboard
