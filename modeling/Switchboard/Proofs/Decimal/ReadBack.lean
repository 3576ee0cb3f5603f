import Switchboard.Proofs.Decimal.Digits
import Switchboard.Proofs.Decimal.Shortest

/-! The text of a number is read as that number, however its digits are laid out. -/
namespace Switchboard.Decimal

theorem digitsOf_injective : Function.Injective digitsOf := fun m n h => by
  rw [← readDigits_digitsOf m, h, readDigits_digitsOf]

theorem exponent?_nil : exponent? [] = some 0 := rfl

/-- An exponent without a sign. -/
theorem exponent?_digitsOf (n : Nat) : exponent? ('e' :: digitsOf n) = some (n : Int) := by
  obtain ⟨c, t, hct, hc⟩ := exists_digit_cons (digitsOf_ne_nil n) (all_isDigit_digitsOf n)
  have hread := natural?_digitsOf n
  rw [hct] at hread ⊢
  unfold exponent?
  simp only [true_or, if_true]
  split
  · next h =>
    cases h
    cases hc
  · next h =>
    cases h
    cases hc
  · rw [hread]
    rfl

theorem exponent?_minus (n : Nat) : exponent? ('e' :: '-' :: digitsOf n) = some (-n : Int) := by
  simp only [exponent?, true_or, if_true, natural?_digitsOf]
  rfl

theorem exponent?_plus (n : Nat) : exponent? ('e' :: '+' :: digitsOf n) = some (n : Int) := by
  simp only [exponent?, true_or, if_true, natural?_digitsOf]
  rfl

theorem exponent?_exponent (l : Layout) (e : Int) : exponent? ('e' :: l.exponent e) = some e := by
  unfold Layout.exponent
  split
  · have habs : -(e.natAbs : Int) = e := by omega
    rw [List.singleton_append, exponent?_minus, habs]
  · have habs : (e.natAbs : Int) = e := by omega
    split
    · rw [List.singleton_append, exponent?_plus, habs]
    · rw [List.nil_append, exponent?_digitsOf, habs]

/-- No digit follows the digits that are read. -/
theorem span_isDigit_append {s t : List Char} (hs : s.all Char.isDigit = true)
    (ht : ∀ c u, t = c :: u → c.isDigit = false) :
    (s ++ t).takeWhile Char.isDigit = s ∧ (s ++ t).dropWhile Char.isDigit = t := by
  have hdigits := List.all_eq_true.mp hs
  rw [List.takeWhile_append_of_pos hdigits, List.dropWhile_append_of_pos hdigits]
  cases t with
  | nil => simp
  | cons c u =>
    have hc := ht c u rfl
    simp [hc]

theorem head_of_exponent? {s : List Char} {e : Int} (h : exponent? s = some e) (c : Char)
    (t : List Char) (hs : s = c :: t) : c.isDigit = false := by
  subst hs
  by_cases hc : c = 'e' ∨ c = 'E'
  · rcases hc with rfl | rfl <;> rfl
  · simp only [exponent?, hc, if_false] at h
    cases h

/-- A text that begins with a digit is no word. -/
theorem map_toLower_ne {c d : Char} {s t : List Char} (hc : c.isDigit = true)
    (hd : d.isDigit = false) : (c :: s).map Char.toLower ≠ d :: t := by
  intro h
  rw [List.map_cons, toLower_of_isDigit hc, List.cons.injEq] at h
  rw [h.1, hd] at hc
  cases hc

theorem noWord_of_isDigit {c : Char} (s : List Char) (hc : c.isDigit = true) :
    ¬((c :: s).map Char.toLower = "inf".toList ∨
        (c :: s).map Char.toLower = "infinity".toList) ∧
      (c :: s).map Char.toLower ≠ "nan".toList :=
  ⟨not_or.mpr ⟨map_toLower_ne hc (d := 'i') rfl, map_toLower_ne hc (d := 'i') rfl⟩,
    map_toLower_ne hc (d := 'n') rfl⟩

section Unsigned
variable {whole : List Char} (hne : whole ≠ []) (hwhole : whole.all Char.isDigit = true)
include hne hwhole

/-- A numeral with a point. -/
theorem unsigned?_point {part rest : List Char} {e : Int} (hpart : part.all Char.isDigit = true)
    (hrest : exponent? rest = some e) :
    unsigned? (whole ++ '.' :: (part ++ rest)) =
      some (nearest (readDigits 0 (whole ++ part)) (e - part.length)) := by
  obtain ⟨htake, hdrop⟩ := span_isDigit_append (t := '.' :: (part ++ rest)) hwhole (by
    rintro c t ⟨⟩
    rfl)
  obtain ⟨hptake, hpdrop⟩ := span_isDigit_append hpart (head_of_exponent? hrest)
  obtain ⟨c, t, rfl, hc⟩ := exists_digit_cons hne hwhole
  obtain ⟨hinf, hnan⟩ := noWord_of_isDigit (t ++ '.' :: (part ++ rest)) hc
  unfold unsigned?
  simp only [htake, hdrop, hptake, hpdrop]
  rw [List.cons_append, if_neg hinf, if_neg hnan, if_neg (fun h => hne h.1), hrest]
  rfl

/-- A numeral without one. -/
theorem unsigned?_plain {rest : List Char} {e : Int} (hrest : exponent? rest = some e) :
    unsigned? (whole ++ rest) = some (nearest (readDigits 0 whole) e) := by
  obtain ⟨htake, hdrop⟩ := span_isDigit_append hwhole (head_of_exponent? hrest)
  have hpoint (r : List Char) : rest ≠ '.' :: r := by
    rintro rfl
    simp [exponent?] at hrest
  obtain ⟨c, t, rfl, hc⟩ := exists_digit_cons hne hwhole
  obtain ⟨hinf, hnan⟩ := noWord_of_isDigit (t ++ rest) hc
  unfold unsigned?
  simp only [htake, hdrop]
  rw [List.cons_append, if_neg hinf, if_neg hnan, if_neg (fun h => hne h.1), hrest]
  simp

end Unsigned

theorem Dec.strip_spec (d : Dec) (hd : 0 < d.digits) :
    d.strip.value = d.value ∧ 0 < d.strip.digits ∧ d.exp ≤ d.strip.exp := by
  fun_induction Dec.strip d with
  | case1 d h ih =>
    obtain ⟨hvalue, hpos, hexp⟩ := ih (by dsimp only; omega)
    have hten : (d.digits : ℚ) = 10 * (d.digits / 10 : Nat) := by
      have : d.digits = 10 * (d.digits / 10) := by omega
      exact_mod_cast this
    refine ⟨?_, hpos, ?_⟩
    · rw [hvalue, value, value, zpow_add_one₀ (by norm_num), hten]
      ring
    · dsimp only at hexp
      omega
  | case2 d h => exact ⟨rfl, hd, Int.le_refl _⟩

/-- A text is read as a decimal of this value. -/
def Reads (s : List Char) (d : Dec) : Prop :=
  ∃ (n : Nat) (e : Int), unsigned? s = some (nearest n e) ∧ 0 < n ∧ min d.exp (-1) ≤ e ∧
    (n * 10 ^ e : ℚ) = d.value

section Place
variable {d : Dec} (hd : 0 < d.digits) {ds : List Char} (hne : ds ≠ [])
variable (hdigits : ds.all Char.isDigit = true) (hread : readDigits 0 ds = d.digits)

include hd

theorem reads_of_unsigned? {s : List Char} {n : Nat} {e : Int}
    (hs : unsigned? s = some (nearest n e)) (hn : n = d.digits) (he : e = d.exp) : Reads s d :=
  ⟨n, e, hs, hn ▸ hd, he ▸ Int.min_le_left _ _, by rw [hn, he, Dec.value]⟩

include hne hdigits hread

/-- Zeros that are written out are read as digits. -/
theorem reads_zeros (hexp : 0 ≤ d.exp) :
    Reads (ds ++ List.replicate d.exp.toNat '0' ++ ['.', '0']) d := by
  have hwhole : (ds ++ List.replicate d.exp.toNat '0').all Char.isDigit = true := by
    rw [List.all_append, hdigits, all_isDigit_zeros]
    rfl
  have hpart : ['0'].all Char.isDigit = true := rfl
  have htext := unsigned?_point (by simp [hne]) hwhole hpart exponent?_nil
  have hlast := readDigits_zeros (d.digits * 10 ^ d.exp.toNat) 1
  rw [readDigits_append, readDigits_append, hread, readDigits_zeros] at htext
  rw [List.replicate_one] at hlast
  refine ⟨_, _, htext, ?_, by simp, ?_⟩
  · rw [hlast]
    positivity
  · have hnat : d.exp = (d.exp.toNat : Int) := by omega
    rw [hlast, Dec.value]
    conv_rhs => rw [hnat, zpow_natCast]
    push_cast
    norm_num
    ring

/-- The point stands among the digits. -/
theorem reads_split {k : Nat} (hk : 0 < k) (hexp : (ds.length : Int) - k = -d.exp)
    (hlow : d.exp < 0) : Reads (ds.take k ++ '.' :: ds.drop k) d := by
  have hparts : (ds.take k).all Char.isDigit = true ∧ (ds.drop k).all Char.isDigit = true := by
    rw [← Bool.and_eq_true, ← List.all_append, List.take_append_drop]
    exact hdigits
  have htext := unsigned?_point (by simp [hne]; omega) hparts.1 hparts.2 exponent?_nil
  rw [List.append_nil, List.take_append_drop] at htext
  refine reads_of_unsigned? hd htext hread ?_
  rw [List.length_drop]
  omega

omit hne in
/-- The point stands before the digits. -/
theorem reads_below {k : Nat} (hexp : (k + ds.length : Int) = -d.exp) :
    Reads (['0', '.'] ++ List.replicate k '0' ++ ds) d := by
  have hpart : (List.replicate k '0' ++ ds).all Char.isDigit = true := by
    rw [List.all_append, hdigits, all_isDigit_zeros]
    rfl
  have htext := unsigned?_point (List.cons_ne_nil '0' []) rfl hpart exponent?_nil
  have hzero : readDigits 0 (List.replicate (k + 1) '0' ++ ds) = d.digits := by
    rw [readDigits_append, readDigits_zeros, Nat.zero_mul, hread]
  rw [List.append_nil] at htext
  refine reads_of_unsigned? hd htext hzero ?_
  simp
  omega

end Place

/-- Digits are read as the number they were laid out for. -/
theorem Layout.reads_place (l : Layout) (d : Dec) (hd : 0 < d.digits) : Reads (l.place d) d := by
  obtain ⟨ds, hds⟩ : ∃ ds, digitsOf d.digits = ds := ⟨_, rfl⟩
  have hne : ds ≠ [] := hds ▸ digitsOf_ne_nil d.digits
  have hdigits : ds.all Char.isDigit = true := hds ▸ all_isDigit_digitsOf d.digits
  have hread : readDigits 0 ds = d.digits := hds ▸ readDigits_digitsOf d.digits
  have hlen : 0 < ds.length := List.length_pos_of_ne_nil hne
  unfold Layout.place
  simp only [hds]
  split_ifs with hplain hexp hlead
  · exact reads_zeros hd hne hdigits hread hexp
  · exact reads_split hd hne hdigits hread (by omega) (by omega) (by omega)
  · exact reads_below hd hdigits hread (by omega)
  · cases ds with
    | nil => exact absurd rfl hne
    | cons c rest =>
      cases rest with
      | nil =>
        have htext := unsigned?_plain hne hdigits
          (exponent?_exponent l (d.exp + ([c].length : Nat) - 1))
        exact reads_of_unsigned? hd htext hread (by simp)
      | cons a rest =>
        obtain ⟨hc, hrest⟩ := Bool.and_eq_true_iff.mp hdigits
        have htext := unsigned?_point (List.cons_ne_nil c []) (by simpa using hc) hrest
          (exponent?_exponent l (d.exp + ((c :: a :: rest).length : Nat) - 1))
        exact reads_of_unsigned? hd htext hread (by simp; omega)

/-- The digits of a stored magnitude are read as that magnitude. -/
theorem unsigned?_place {b : Binary} (hb : b.Canonical) (l : Layout) :
    unsigned? (l.place (b.shortest l.tie).strip) = some (b.toFloat hb .positive) := by
  obtain ⟨hnear, hexp⟩ := hb.shortest_spec l.tie
  have hdigits : 0 < (b.shortest l.tie).digits := by
    refine Nat.pos_of_ne_zero fun h => ?_
    have hlow := hnear.lower_bound hb
    rw [Dec.value, h, Nat.cast_zero, zero_mul] at hlow
    exact absurd hlow (not_le.mpr (by positivity))
  obtain ⟨hvalue, hpos, hstrip⟩ := Dec.strip_spec _ hdigits
  obtain ⟨n, e, htext, hn, he, hne⟩ := l.reads_place _ hpos
  rw [htext, nearest_eq hb hn (by omega)]
  rwa [hne, hvalue]

/-- A magnitude has no sign. -/
theorem unsigned?_sign {c : Char} (hc : c = '-' ∨ c = '+') (s : List Char) :
    unsigned? (c :: s) = none := by
  have hword (d : Char) (t : List Char) (hd : d ≠ '-' ∧ d ≠ '+') :
      (c :: s).map Char.toLower ≠ d :: t := by
    intro h
    rw [List.map_cons, List.cons.injEq] at h
    rcases hc with rfl | rfl
    · exact hd.1 h.1.symm
    · exact hd.2 h.1.symm
  have hinf : (c :: s).map Char.toLower ≠ "inf".toList := hword 'i' _ (by decide)
  have hinfinity : (c :: s).map Char.toLower ≠ "infinity".toList := hword 'i' _ (by decide)
  have hnan : (c :: s).map Char.toLower ≠ "nan".toList := hword 'n' _ (by decide)
  unfold unsigned?
  dsimp only
  rw [if_neg (not_or.mpr ⟨hinf, hinfinity⟩), if_neg hnan]
  rcases hc with rfl | rfl <;> rfl

theorem float?_of_unsigned? {s : List Char} {x : Float} (h : unsigned? s = some x) :
    float? s = some x := by
  unfold float?
  split
  · rw [unsigned?_sign (.inl rfl)] at h
    cases h
  · rw [unsigned?_sign (.inr rfl)] at h
    cases h
  · exact h

theorem float?_minus {s : List Char} {x : Float} (h : unsigned? s = some x) :
    float? ('-' :: s) = some (-x) := by
  rw [float?, h]
  rfl

/-- The characters of a numeral without a sign. The last three come with an exponent only. -/
def MayOccur (s : List Char) (c : Char) : Prop :=
  c.isDigit = true ∨ c = '.' ∨ 'e' ∈ s ∧ c ∈ ['e', '-', '+']

theorem Layout.mem_exponent (l : Layout) (e : Int) {c : Char} (hc : c ∈ 'e' :: l.exponent e) :
    c.isDigit = true ∨ c ∈ ['e', '-', '+'] := by
  have hdigits : ∀ c ∈ digitsOf e.natAbs, c.isDigit = true :=
    List.all_eq_true.mp (all_isDigit_digitsOf _)
  unfold Layout.exponent at hc
  rcases List.mem_cons.mp hc with rfl | hc
  · exact .inr List.mem_cons_self
  · rcases List.mem_append.mp hc with hc | hc
    · refine .inr ?_
      split_ifs at hc <;> simp_all
    · exact .inl (hdigits c hc)

/-- There are only digits and a point, but for an exponent. -/
theorem Layout.mem_place (l : Layout) (d : Dec) {c : Char} (hc : c ∈ l.place d) :
    MayOccur (l.place d) c := by
  obtain ⟨ds, hds⟩ : ∃ ds, digitsOf d.digits = ds := ⟨_, rfl⟩
  have hdigits : ∀ c ∈ ds, c.isDigit = true :=
    List.all_eq_true.mp (hds ▸ all_isDigit_digitsOf d.digits)
  have hzero {s : List Char} {k : Nat} (hc : c ∈ List.replicate k '0') : MayOccur s c := by
    rw [List.eq_of_mem_replicate hc]
    exact .inl rfl
  unfold Layout.place at hc ⊢
  simp only [hds] at hc ⊢
  split_ifs at hc ⊢
  · rcases List.mem_append.mp hc with hc | hc
    · rcases List.mem_append.mp hc with hc | hc
      · exact .inl (hdigits c hc)
      · exact hzero hc
    · rcases List.mem_cons.mp hc with hc | hc
      · exact .inr (.inl hc)
      · exact hzero (k := 1) hc
  · rcases List.mem_append.mp hc with hc | hc
    · exact .inl (hdigits c (List.mem_of_mem_take hc))
    · rcases List.mem_cons.mp hc with hc | hc
      · exact .inr (.inl hc)
      · exact .inl (hdigits c (List.mem_of_mem_drop hc))
  · rcases List.mem_append.mp hc with hc | hc
    · rcases List.mem_append.mp hc with hc | hc
      · rcases List.mem_cons.mp hc with hc | hc
        · exact hzero (k := 1) (List.mem_singleton.mpr hc)
        · exact .inr (.inl (List.mem_singleton.mp hc))
      · exact hzero hc
    · exact .inl (hdigits c hc)
  · match ds, hdigits with
    | [], _ => cases hc
    | [a], hdigits =>
      rcases List.mem_cons.mp hc with rfl | hc
      · exact .inl (hdigits c List.mem_cons_self)
      · exact (l.mem_exponent _ hc).imp id fun h => .inr ⟨by simp, h⟩
    | a :: b :: rest, hdigits =>
      rcases List.mem_append.mp hc with hc | hc
      · rcases List.mem_cons.mp hc with rfl | hc
        · exact .inl (hdigits c List.mem_cons_self)
        · rcases List.mem_cons.mp hc with hc | hc
          · exact .inr (.inl hc)
          · exact .inl (hdigits c (List.mem_cons_of_mem a hc))
      · exact (l.mem_exponent _ hc).imp id fun h => .inr ⟨by simp, h⟩

/-- A point or an exponent tells a float from an integer. -/
theorem Layout.point_or_exponent_mem_place (l : Layout) (d : Dec) :
    '.' ∈ l.place d ∨ 'e' ∈ l.place d := by
  have hne := digitsOf_ne_nil d.digits
  unfold Layout.place
  dsimp only
  split_ifs
  · exact .inl (by simp)
  · exact .inl (by simp)
  · exact .inl (by simp)
  · match digitsOf d.digits, hne with
    | [a], _ => exact .inr (by simp)
    | a :: b :: rest, _ => exact .inl (by simp)

/-- A number without its sign. -/
def unsign (x : Float) : Float := if isNegative x then -x else x

theorem neg_neg (x : Float) : - -x = x := by
  rcases kind x with _ | s | s | ⟨b, hb, s⟩
  · rfl
  · cases s <;> rfl
  · cases s <;> rfl
  · rw [neg_toFloat, neg_toFloat]
    cases s <;> rfl

/-- The text of a finite number is a numeral without a sign, after the sign if there is one. -/
theorem exists_render (l : Layout) {x : Float} (hx : isFinite x = true) :
    ∃ s, l.render x = (if isNegative x then ['-'] else []) ++ s ∧
      unsigned? s = some (unsign x) ∧ (∀ c ∈ s, MayOccur s c) ∧ ('.' ∈ s ∨ 'e' ∈ s) := by
  rcases kind x with _ | s | s | ⟨b, hb, s⟩
  · cases hx
  · cases s <;> cases hx
  · refine ⟨['0', '.', '0'], ?_, ?_, fun c hc => ?_, by simp⟩
    · cases s <;> rfl
    · cases s <;> rfl
    · simp only [List.mem_cons, List.not_mem_nil, or_false] at hc
      rcases hc with rfl | rfl | rfl
      · exact .inl rfl
      · exact .inr (.inl rfl)
      · exact .inl rfl
  · have hself : (b.toFloat hb s != b.toFloat hb s) = false := by
      rw [bne, beq_self_toFloat]
      rfl
    refine ⟨l.place (b.shortest l.tie).strip, ?_, ?_, fun c hc => l.mem_place _ hc,
      l.point_or_exponent_mem_place _⟩
    · unfold Layout.render
      simp only [hself, isFinite_toFloat, beq_zero_toFloat, magnitude_toFloat, Bool.not_true,
        Bool.false_eq_true, if_false]
    · rw [unsigned?_place hb l, unsign, isNegative_toFloat]
      cases s with
      | negative => exact congrArg some (neg_toFloat hb .negative).symm
      | positive => rfl

/-- The text of a number is read as that number. -/
theorem float?_render (l : Layout) (x : Float) : float? (l.render x) = some x := by
  by_cases hx : isFinite x = true
  · obtain ⟨s, hs, hread, -⟩ := exists_render l hx
    rw [hs]
    unfold unsign at hread
    split at hread
    · rw [if_pos ‹_›, List.singleton_append, float?_minus hread, neg_neg]
    · rw [if_neg ‹_›, List.nil_append, float?_of_unsigned? hread]
  · rcases kind x with _ | s | s | ⟨b, hb, s⟩
    · rfl
    · cases s <;> rfl
    · cases s <;> rfl
    · exact absurd (isFinite_toFloat hb s) hx

/-- Numbers that are not finite have one text each. -/
theorem render_mem_of_not_finite (l : Layout) {x : Float} (hx : isFinite x = false) :
    l.render x ∈ ["NaN".toList, "inf".toList, "-inf".toList] := by
  rcases kind x with _ | s | s | ⟨b, hb, s⟩
  · exact List.mem_cons_self
  · cases s
    · exact .tail _ (.tail _ (.head _))
    · exact .tail _ (.head _)
  · cases s <;> cases hx
  · rw [isFinite_toFloat] at hx
    cases hx

/-- Some character of a float's text is in no integer's. -/
theorem exists_mem_render (l : Layout) (x : Float) :
    ∃ c ∈ l.render x, c ∈ ['.', 'e', 'N', 'i'] := by
  cases hx : isFinite x with
  | true =>
    obtain ⟨s, hs, -, -, hmark | hmark⟩ := exists_render l hx
    · exact ⟨'.', hs ▸ List.mem_append_right _ hmark, by simp⟩
    · exact ⟨'e', hs ▸ List.mem_append_right _ hmark, by simp⟩
  | false =>
    have hmem := render_mem_of_not_finite l hx
    simp only [List.mem_cons, List.not_mem_nil, or_false] at hmem
    rcases hmem with h | h | h <;> rw [h]
    · exact ⟨'N', by simp, by simp⟩
    · exact ⟨'i', by simp, by simp⟩
    · exact ⟨'i', by simp, by simp⟩

theorem mem_render (l : Layout) {x : Float} {c : Char} (hc : c ∈ l.render x) :
    c.isDigit = true ∨ c ∈ "-+.eNainf".toList := by
  cases hx : isFinite x with
  | true =>
    obtain ⟨s, hs, -, hmem, -⟩ := exists_render l hx
    rw [hs] at hc
    rcases List.mem_append.mp hc with hc | hc
    · refine .inr ?_
      split_ifs at hc
      · simp_all
      · cases hc
    · rcases hmem c hc with hdigit | rfl | ⟨-, hmark⟩
      · exact .inl hdigit
      · exact .inr (by simp)
      · refine .inr ?_
        simp only [List.mem_cons, List.not_mem_nil, or_false] at hmark
        rcases hmark with rfl | rfl | rfl <;> simp
  | false =>
    have hmem := render_mem_of_not_finite l hx
    simp only [List.mem_cons, List.not_mem_nil, or_false] at hmem
    refine .inr ?_
    rcases hmem with h | h | h <;> rw [h] at hc <;> revert c <;> simp

end Switchboard.Decimal
