import Switchboard.Proofs.Expression.Scanning

/-! How far scanning looks ahead: past the characters of a token at the next one, and past a point
behind a number at the one after it. Where these are the same, or white space comes in, the same
token is scanned from the same characters. -/
namespace Switchboard.Expression
open Text (isWhite)

/-- `s'` starts as `s` does, or with white space, or is at its end. -/
def Heads (s s' : List Char) : Prop := ∀ c ∈ s'.head?, isWhite c = true ∨ s.head? = some c

/-- As far as a scanner looks ahead, `s'` is `s`, with white space in it at most. -/
def Spaced (s s' : List Char) : Prop :=
  ∀ c ∈ s'.head?, isWhite c = true ∨ s.head? = some c ∧ Heads s.tail s'.tail

theorem Spaced.heads {s s' : List Char} (h : Spaced s s') : Heads s s' :=
  fun c hc => (h c hc).imp_right And.left

theorem Heads.stops {p : Char → Bool} (hp : ∀ c, isWhite c = true → p c = false)
    {s s' : List Char} (h : Heads s s') (hs : Stops p s) : Stops p s' := by
  intro c hc
  rcases h c hc with hwhite | hsame
  · exact hp c hwhite
  · exact hs c hsame

theorem Heads.refl (s : List Char) : Heads s s := fun _ hc => .inr hc

theorem Spaced.refl (s : List Char) : Spaced s s := fun _ hc => .inr ⟨hc, .refl _⟩

theorem Spaced.nil (s : List Char) : Spaced s [] := nofun

theorem Spaced.of_white {s' : List Char} (h : ∀ c ∈ s'.head?, isWhite c = true) (s : List Char) :
    Spaced s s' := fun c hc => .inl (h c hc)

theorem Heads.append_left {s s' : List Char} (h : Heads s s') (r : List Char) :
    Heads (r ++ s) (r ++ s') := by
  cases r with
  | nil => exact h
  | cons c r => exact fun _ hc => .inr hc

theorem Spaced.cons (c : Char) {s s' : List Char} (h : Heads s s') :
    Spaced (c :: s) (c :: s') := fun _ hc => .inr ⟨hc, h⟩

/-- A quoted text ends with the first closing quote, whatever comes after it. -/
theorem scanString_split {quote : Char} {s content rest : List Char}
    (h : scanString quote s = some (content, rest)) :
    ∃ body, s = body ++ quote :: rest ∧
      ∀ rest', scanString quote (body ++ quote :: rest') = some (content, rest') := by
  fun_induction scanString quote s generalizing content rest with
  | case1 => cases h
  | case2 =>
    cases h
    exact ⟨[], rfl, fun rest' => by rw [List.nil_append, scanString.eq_def]; simp⟩
  | case3 => cases h
  | case4 e s hquote ih =>
    obtain ⟨⟨content, rest⟩, hs, ⟨⟩⟩ := Option.map_eq_some_iff.mp h
    obtain ⟨body, rfl, hbody⟩ := ih hs
    exact ⟨'\\' :: e :: body, rfl, fun rest' => by simp [scanString, hquote, hbody]⟩
  | case5 c s hquote hslash ih =>
    obtain ⟨⟨content, rest⟩, hs, ⟨⟩⟩ := Option.map_eq_some_iff.mp h
    obtain ⟨body, rfl, hbody⟩ := ih hs
    refine ⟨c :: body, rfl, fun rest' => ?_⟩
    rw [List.cons_append, scanString.eq_def]
    simp [hquote, hslash, hbody]

/-- A number goes on with `c`, where `s` comes next. -/
def goesOn (c : Char) (s : List Char) : Bool := c.isDigit || c == '.' && s.head?.any Char.isDigit

theorem scanNumber_cons (c : Char) (s : List Char) :
    scanNumber (c :: s) =
      if goesOn c s then (c :: (scanNumber s).1, (scanNumber s).2) else ([], c :: s) := by
  rw [scanNumber]
  rfl

theorem isDigit_of_isWhite {c : Char} (h : isWhite c = true) : c.isDigit = false := by
  refine Bool.eq_false_iff.mpr fun hdigit => ?_
  rw [Text.isWhite_of_isDigit hdigit] at h
  cases h

theorem goesOn_of_isWhite {c : Char} (h : isWhite c = true) (s : List Char) :
    goesOn c s = false := by
  have hpoint : c ≠ '.' := by
    rintro rfl
    cases h
  simp [goesOn, isDigit_of_isWhite h, hpoint]

theorem goesOn_eq_false_iff {c : Char} {s : List Char} :
    goesOn c s = false ↔ c.isDigit = false ∧ (c = '.' → Stops Char.isDigit s) := by
  cases s with
  | nil => simp [goesOn, Stops]
  | cons d s => simp [goesOn, Stops]

theorem Heads.goesOn_eq_false {c : Char} {s s' : List Char} (h : Heads s s')
    (hs : goesOn c s = false) : goesOn c s' = false := by
  rw [goesOn_eq_false_iff] at hs ⊢
  exact hs.imp_right fun hpoint hc => h.stops (fun _ => isDigit_of_isWhite) (hpoint hc)

theorem scanNumber_of_spaced {s s' : List Char} (h : Spaced s s')
    (hs : ∀ c r, s = c :: r → goesOn c r = false) : scanNumber s' = ([], s') := by
  cases s' with
  | nil => rfl
  | cons c s' =>
    have hstop : goesOn c s' = false := by
      rcases h c rfl with hwhite | ⟨hc, hheads⟩
      · exact goesOn_of_isWhite hwhite s'
      · obtain ⟨r, rfl⟩ := List.head?_eq_some_iff.mp hc
        exact hheads.goesOn_eq_false (hs c r rfl)
    rw [scanNumber_cons, hstop]
    rfl

theorem head?_scanNumber {s : List Char} (h : s.head?.any Char.isDigit = true) (rest : List Char) :
    ((scanNumber s).1 ++ rest).head? = s.head? := by
  cases s with
  | nil => cases h
  | cons c s =>
    have hc : goesOn c s = true := Bool.or_eq_true_iff.mpr (.inl h)
    rw [scanNumber_cons, if_pos hc]
    rfl

/-- The digits and points of a number are the same where white space comes in behind them. -/
theorem scanNumber_spaced (s : List Char) {rest : List Char} (h : Spaced (scanNumber s).2 rest) :
    scanNumber ((scanNumber s).1 ++ rest) = ((scanNumber s).1, rest) := by
  induction s with
  | nil => exact scanNumber_of_spaced h nofun
  | cons c s ih =>
    by_cases hc : goesOn c s = true
    · rw [scanNumber_cons, if_pos hc] at h ⊢
      have hon : goesOn c ((scanNumber s).1 ++ rest) = true := by
        rcases Bool.or_eq_true_iff.mp hc with hdigit | hpoint
        · exact Bool.or_eq_true_iff.mpr (.inl hdigit)
        · have hnext := (Bool.and_eq_true_iff.mp hpoint).2
          rw [← head?_scanNumber hnext rest] at hpoint
          exact Bool.or_eq_true_iff.mpr (.inr hpoint)
      rw [List.cons_append, scanNumber_cons, if_pos hon, ih h]
    · rw [scanNumber_cons, if_neg hc] at h ⊢
      refine scanNumber_of_spaced h ?_
      rintro _ _ ⟨⟩
      exact Bool.eq_false_iff.mpr hc

/-- There is no white space in a number. -/
theorem isWhite_of_mem_scanNumber {s : List Char} {c : Char} (h : c ∈ (scanNumber s).1) :
    isWhite c = false := by
  induction s with
  | nil => cases h
  | cons d s ih =>
    by_cases hd : goesOn d s = true
    · rw [scanNumber_cons, if_pos hd] at h
      rcases List.mem_cons.mp h with rfl | h
      · refine Bool.eq_false_iff.mpr fun hwhite => ?_
        rw [goesOn_of_isWhite hwhite] at hd
        cases hd
      · exact ih h
    · rw [scanNumber_cons, if_neg hd] at h
      cases h

theorem all_scanName (s : List Char) : (scanName s).1.all continuesName = true := by
  induction s with
  | nil => rfl
  | cons c s ih =>
    unfold scanName
    split
    · next hc => exact Bool.and_eq_true_iff.mpr ⟨hc, ih⟩
    · rfl

theorem stops_scanName (s : List Char) : Stops continuesName (scanName s).2 := by
  induction s with
  | nil => exact nofun
  | cons c s ih =>
    unfold scanName
    split
    · exact ih
    · next hc => exact .cons (Bool.eq_false_iff.mpr hc) s

theorem Heads.ne_equals {s s' : List Char} (h : Heads s s') (hs : ∀ r, s ≠ '=' :: r)
    (r : List Char) : s' ≠ '=' :: r := by
  rintro rfl
  rcases h '=' rfl with hwhite | hsame
  · cases hwhite
  · obtain ⟨r, rfl⟩ := List.head?_eq_some_iff.mp hsame
    exact hs r rfl

theorem isWhite_of_all_isMark {s : List Char} (h : s.all Text.isMark = true) :
    ∀ c ∈ s, isWhite c = false :=
  fun c hc => Text.isWhite_of_isMark (List.all_eq_true.mp h c hc)

/-- An operator ends where no longer one begins with it. -/
theorem operator?_split {c : Char} {s rest : List Char} {t : Token}
    (h : operator? c s = some (t, rest)) :
    ∃ r, s = r ++ rest ∧ (∀ d ∈ r, isWhite d = false) ∧
      ∀ rest', Heads rest rest' → operator? c (r ++ rest') = some (t, rest') := by
  unfold operator? at h
  split at h
  · next hc =>
    subst hc
    split at h
    · cases h
      exact ⟨['>'], rfl, isWhite_of_all_isMark rfl, fun _ _ => rfl⟩
    · cases h
      exact ⟨['=', '='], rfl, isWhite_of_all_isMark rfl, fun _ _ => rfl⟩
    · next hlong =>
      cases h
      refine ⟨['='], rfl, isWhite_of_all_isMark rfl, fun rest' hheads => ?_⟩
      have hne := hheads.ne_equals fun r hr => hlong r (by rw [hr])
      simp [operator?]
    · cases h
  split at h
  · next _ hc =>
    subst hc
    split at h
    · cases h
      exact ⟨['=', '='], rfl, isWhite_of_all_isMark rfl, fun _ _ => rfl⟩
    · next hlong =>
      cases h
      refine ⟨['='], rfl, isWhite_of_all_isMark rfl, fun rest' hheads => ?_⟩
      have hne := hheads.ne_equals fun r hr => hlong r (by rw [hr])
      simp [operator?]
    · next _ hshort =>
      cases h
      refine ⟨[], rfl, List.forall_mem_nil _, fun rest' hheads => ?_⟩
      have hne := hheads.ne_equals hshort
      cases rest' with
      | nil => rfl
      | cons c rest' =>
        have hc : c ≠ '=' := fun hc => hne rest' (by rw [hc])
        simp [operator?, hc]
  split at h
  · next _ _ hc =>
    subst hc
    split at h
    · cases h
      exact ⟨['='], rfl, isWhite_of_all_isMark rfl, fun _ _ => rfl⟩
    · next hlong =>
      cases h
      refine ⟨[], rfl, List.forall_mem_nil _, fun rest' hheads => ?_⟩
      have hne := hheads.ne_equals hlong
      simp [operator?]
  split at h
  · next _ _ _ hc =>
    subst hc
    split at h
    · cases h
      exact ⟨['='], rfl, isWhite_of_all_isMark rfl, fun _ _ => rfl⟩
    · next hlong =>
      cases h
      refine ⟨[], rfl, List.forall_mem_nil _, fun rest' hheads => ?_⟩
      have hne := hheads.ne_equals hlong
      simp [operator?]
  split at h
  · next _ _ _ _ hc =>
    subst hc
    split at h
    · cases h
      exact ⟨['&'], rfl, isWhite_of_all_isMark rfl, fun _ _ => rfl⟩
    · cases h
  split at h
  · next _ _ _ _ _ hc =>
    subst hc
    split at h
    · cases h
      exact ⟨['|'], rfl, isWhite_of_all_isMark rfl, fun _ _ => rfl⟩
    · cases h
  · cases h

/-- A token is scanned from the same characters where white space comes in behind them. -/
theorem scanToken_split {pos : Nat} {c : Char} {s rest : List Char} {t : Token}
    (hc : isWhite c = false) (h : scanToken pos c s = .ok (t, rest)) :
    ∃ r, s = r ++ rest ∧ (∀ d ∈ (c :: r).getLast?, isWhite d = false) ∧
      ∀ pos rest', Spaced rest rest' → scanToken pos c (r ++ rest') = .ok (t, rest') := by
  have hlast {r : List Char} (hr : ∀ d ∈ r, isWhite d = false) :
      ∀ d ∈ (c :: r).getLast?, isWhite d = false := by
    intro d hd
    rcases List.mem_cons.mp (List.mem_of_mem_getLast? hd) with rfl | hd
    · exact hc
    · exact hr d hd
  unfold scanToken at h
  split at h
  · next hpunct =>
    cases h
    refine ⟨[], rfl, hlast nofun, fun pos rest' _ => ?_⟩
    rw [scanToken, hpunct]
    rfl
  next hpunct =>
  split at h
  · next hquote =>
    split at h
    · next content rest hs =>
      cases h
      obtain ⟨body, rfl, hbody⟩ := scanString_split hs
      refine ⟨body ++ [c], by simp, ?_, fun pos rest' _ => ?_⟩
      · rw [← List.cons_append, List.getLast?_concat]
        rintro _ ⟨⟩
        exact hc
      · rw [scanToken, hpunct]
        simp only
        rw [if_pos hquote, List.append_assoc, List.singleton_append, hbody]
    · cases h
  next hquote =>
  split at h
  · next hnumeral =>
    simp only at h
    split at h
    · next x hx =>
      cases h
      refine ⟨(scanNumber s).1, (scanNumber_append s).symm,
        hlast fun d hd => isWhite_of_mem_scanNumber hd, fun pos rest' hspaced => ?_⟩
      rw [scanToken, hpunct]
      simp only
      rw [if_neg hquote, if_pos hnumeral, scanNumber_spaced s hspaced]
      simp only [hx]
    · cases h
  next hnumeral =>
  split at h
  · next hname =>
    cases h
    refine ⟨(scanName s).1, (scanName_append s).symm, hlast fun d hd => ?_,
      fun pos rest' hspaced => ?_⟩
    · refine Bool.eq_false_iff.mpr fun hwhite => ?_
      have hcont := List.all_eq_true.mp (all_scanName s) d hd
      rw [continuesName_of_isWhite hwhite] at hcont
      cases hcont
    · have hstops := hspaced.heads.stops (fun _ => continuesName_of_isWhite) (stops_scanName s)
      rw [scanToken_name hname, scanName_append_of_stops (all_scanName s) hstops]
  next hname =>
  split at h
  · next hop =>
    cases h
    obtain ⟨r, rfl, hr, hsplit⟩ := operator?_split hop
    refine ⟨r, rfl, hlast hr, fun pos rest' hspaced => ?_⟩
    rw [scanToken, hpunct]
    simp only
    rw [if_neg hquote, if_neg hnumeral, if_neg hname, hsplit rest' hspaced.heads]
  · cases h

end Switchboard.Expression
