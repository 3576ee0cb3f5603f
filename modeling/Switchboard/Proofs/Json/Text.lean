import Switchboard.Json.Text
import Switchboard.Proofs.Decimal.ReadBack
import Switchboard.Proofs.Json.Same

/-! The JSON text of a value tells it from every other value, and where it ends in a longer text.
There are no control characters in it. -/
namespace Switchboard

namespace Number

theorem mem_chars_int {n : Int} {c : Char} (hc : c ∈ (int n).chars) :
    c.isDigit = true ∨ c = '-' := by
  rcases List.mem_append.mp hc with hc | hc
  · split_ifs at hc
    · exact .inr (List.mem_singleton.mp hc)
    · cases hc
  · exact .inl (List.all_eq_true.mp (Decimal.all_isDigit_digitsOf _) c hc)

theorem mem_chars {n : Number} {c : Char} (hc : c ∈ n.chars) :
    c.isDigit = true ∨ c ∈ "-+.eNainf".toList := by
  cases n with
  | int n => exact (mem_chars_int hc).imp id fun h => by simp [h]
  | float x => exact Decimal.mem_render layout hc

theorem chars_ne_nil (n : Number) : n.chars ≠ [] := by
  cases n with
  | int n => exact List.append_ne_nil_of_right_ne_nil _ (Decimal.digitsOf_ne_nil _)
  | float x =>
    obtain ⟨c, hc, -⟩ := Decimal.exists_mem_render layout x
    exact List.ne_nil_of_mem hc

theorem chars_int_ne (n : Int) (x : Float) : (int n).chars ≠ (float x).chars := by
  intro h
  obtain ⟨c, hc, hmark⟩ := Decimal.exists_mem_render layout x
  have hint := mem_chars_int (n := n) (c := c) (by rwa [h])
  simp only [List.mem_cons, List.not_mem_nil, or_false] at hmark
  rcases hmark with rfl | rfl | rfl | rfl <;> simp at hint

theorem chars_int_injective {m n : Int} (h : (int m).chars = (int n).chars) : m = n := by
  have hminus (k : Nat) (s : List Char) : Decimal.digitsOf k ≠ '-' :: s := by
    intro hk
    have hdigit := List.all_eq_true.mp (Decimal.all_isDigit_digitsOf k) '-' (by simp [hk])
    cases hdigit
  simp only [chars] at h
  split_ifs at h
  · have := Decimal.digitsOf_injective (List.cons.inj h).2
    omega
  · exact absurd h.symm (hminus _ _)
  · exact absurd h (hminus _ _)
  · have := Decimal.digitsOf_injective h
    omega

/-- Different numbers have different texts. -/
theorem chars_injective : Function.Injective chars := by
  intro m n h
  cases m with
  | int m =>
    cases n with
    | int n => exact congrArg int (chars_int_injective h)
    | float y => exact absurd h (chars_int_ne m y)
  | float x =>
    cases n with
    | int n => exact absurd h.symm (chars_int_ne n x)
    | float y =>
      have hread := Decimal.float?_render layout x
      rw [show layout.render x = layout.render y from h, Decimal.float?_render] at hread
      exact congrArg float (Option.some.inj hread).symm

end Number

namespace Json

/-- The characters that are escaped. -/
def specials : List Char := '"' :: '\\' :: (List.range 32).map Char.ofNat

theorem toNat_of_not_mem_specials {c : Char} (hc : c ∉ specials) : 32 ≤ c.toNat := by
  by_contra hlt
  refine hc (.tail _ (.tail _ (List.mem_map.mpr ⟨c.toNat, List.mem_range.mpr (by omega), ?_⟩)))
  exact Char.ofNat_toNat c

theorem escape_of_not_mem {c : Char} (hc : c ∉ specials) : escape c = [c] := by
  have hlow := toNat_of_not_mem_specials hc
  have hne {d : Char} (hd : d ∈ specials) : c ≠ d := fun h => hc (h ▸ hd)
  unfold escape
  rw [if_neg (hne (by decide)), if_neg (hne (by decide)), if_neg (hne (by decide)),
    if_neg (hne (by decide)), if_neg (hne (by decide)), if_neg (by omega), if_neg (by omega),
    if_neg (by omega)]

/-- An escape begins with a backslash, has no control characters and begins no other escape. -/
theorem escape_of_mem {c : Char} (hc : c ∈ specials) :
    (∃ t, escape c = '\\' :: t) ∧ (∀ e ∈ escape c, 32 ≤ e.toNat) ∧
      ∀ d ∈ specials, escape c <+: escape d → c = d := by
  have hall : (specials.all fun c => (escape c).head? == some '\\' &&
      ((escape c).all (32 ≤ ·.toNat) &&
        specials.all fun d => !(escape c).isPrefixOf (escape d) || c == d)) = true := by
    decide +kernel
  obtain ⟨hhead, hrest⟩ := Bool.and_eq_true_iff.mp (List.all_eq_true.mp hall c hc)
  obtain ⟨hlow, hfree⟩ := Bool.and_eq_true_iff.mp hrest
  refine ⟨List.head?_eq_some_iff.mp (beq_iff_eq.mp hhead),
    fun e he => of_decide_eq_true (List.all_eq_true.mp hlow e he), fun d hd hprefix => ?_⟩
  rcases Bool.or_eq_true_iff.mp (List.all_eq_true.mp hfree d hd) with hno | heq
  · rw [List.isPrefixOf_iff_prefix.mpr hprefix] at hno
    cases hno
  · exact beq_iff_eq.mp heq

theorem escape_head (c : Char) : ∃ d t, escape c = d :: t ∧ d ≠ '"' := by
  by_cases hc : c ∈ specials
  · obtain ⟨t, ht⟩ := (escape_of_mem hc).1
    exact ⟨'\\', t, ht, by decide⟩
  · exact ⟨c, [], escape_of_not_mem hc, fun h => hc (h ▸ List.mem_cons_self)⟩

/-- What stands for one character is no beginning of what stands for another. -/
theorem eq_of_escape_isPrefix {c d : Char} (h : escape c <+: escape d) : c = d := by
  by_cases hc : c ∈ specials
  · obtain ⟨t, ht⟩ := (escape_of_mem hc).1
    by_cases hd : d ∈ specials
    · exact (escape_of_mem hc).2.2 d hd h
    · rw [ht, escape_of_not_mem hd, List.cons_prefix_cons] at h
      exact absurd (h.1 ▸ .tail _ (.head _)) hd
  · rw [escape_of_not_mem hc] at h
    by_cases hd : d ∈ specials
    · obtain ⟨t, ht⟩ := (escape_of_mem hd).1
      rw [ht, List.cons_prefix_cons] at h
      exact absurd (h.1 ▸ .tail _ (.head _)) hc
    · rw [escape_of_not_mem hd, List.cons_prefix_cons] at h
      exact h.1

theorem escape_append_inj {c d : Char} {x y : List Char} (h : escape c ++ x = escape d ++ y) :
    c = d ∧ x = y := by
  have hcd : c = d := by
    rcases List.prefix_or_prefix_of_prefix (List.prefix_append (escape c) x)
      (h ▸ List.prefix_append (escape d) y) with hprefix | hprefix
    · exact eq_of_escape_isPrefix hprefix
    · exact (eq_of_escape_isPrefix hprefix).symm
  subst hcd
  exact ⟨rfl, List.append_cancel_left h⟩

theorem flatMap_escape_append_inj {s t x y : List Char}
    (h : s.flatMap escape ++ '"' :: x = t.flatMap escape ++ '"' :: y) : s = t ∧ x = y := by
  have hquote (c : Char) (u v : List Char) : '"' :: u ≠ escape c ++ v := by
    obtain ⟨d, r, hd, hne⟩ := escape_head c
    rw [hd]
    exact fun h => hne (List.cons.inj h).1.symm
  induction s generalizing t with
  | nil =>
    cases t with
    | nil => exact ⟨rfl, (List.cons.inj h).2⟩
    | cons d t =>
      rw [List.flatMap_cons, List.append_assoc] at h
      exact absurd h (hquote d _ _)
  | cons c s ih =>
    cases t with
    | nil =>
      rw [List.flatMap_cons, List.append_assoc] at h
      exact absurd h.symm (hquote c _ _)
    | cons d t =>
      simp only [List.flatMap_cons, List.append_assoc] at h
      obtain ⟨rfl, hrest⟩ := escape_append_inj h
      obtain ⟨rfl, hxy⟩ := ih hrest
      exact ⟨rfl, hxy⟩

/-- A text in quotes ends at its closing quote. -/
theorem quoted_append_inj {s t : String} {x y : List Char} (h : quoted s ++ x = quoted t ++ y) :
    s = t ∧ x = y := by
  simp only [quoted, List.cons_append, List.append_assoc, List.nil_append, List.cons.injEq,
    true_and] at h
  obtain ⟨hst, hxy⟩ := flatMap_escape_append_inj h
  exact ⟨String.toList_injective hst, hxy⟩

/-- The characters that words and numbers end at. -/
def marks : List Char := ['"', ',', ':', '[', ']', '{', '}']

/-- What may follow a value in a text. -/
def Ended (s : List Char) : Prop := ∀ c t, s = c :: t → c ∈ marks

/-- Words and numbers: something is written, and none of it ends them. -/
def Bare (s : List Char) : Prop := s ≠ [] ∧ ∀ c ∈ s, c ∉ marks

theorem ended_cons {c : Char} (hc : c ∈ marks) (t : List Char) : Ended (c :: t) := by
  rintro d u ⟨⟩
  exact hc

theorem Bare.takeWhile {s x : List Char} (hs : Bare s) (hx : Ended x) :
    (s ++ x).takeWhile (· ∉ marks) = s := by
  rw [List.takeWhile_append_of_pos fun c hc => decide_eq_true (hs.2 c hc)]
  cases x with
  | nil => simp
  | cons c t => simp [hx c t rfl]

theorem Bare.append_inj {s t x y : List Char} (hs : Bare s) (ht : Bare t) (hx : Ended x)
    (hy : Ended y) (h : s ++ x = t ++ y) : s = t ∧ x = y := by
  have hst : s = t := by rw [← hs.takeWhile hx, h, ht.takeWhile hy]
  subst hst
  exact ⟨rfl, List.append_cancel_left h⟩

theorem Bare.append_ne {s : List Char} {c : Char} (hs : Bare s) (hc : c ∈ marks) (x y : List Char) :
    s ++ x ≠ c :: y := by
  cases s with
  | nil => exact absurd rfl hs.1
  | cons d t =>
    intro h
    exact hs.2 d List.mem_cons_self ((List.cons.inj h).1 ▸ hc)

/-- Values written without quotes or brackets. -/
def isPlain : Json → Bool
  | null => true
  | bool _ => true
  | num _ => true
  | str _ => false
  | arr _ => false
  | obj _ => false

theorem not_mem_marks_of_isDigit {c : Char} (hc : c.isDigit = true) : c ∉ marks := by
  intro hmem
  have hnone : marks.all (!·.isDigit) = true := by decide
  have hno := List.all_eq_true.mp hnone c hmem
  rw [hc] at hno
  cases hno

theorem bare_chars {v : Json} (hv : v.isPlain = true) : Bare v.chars := by
  cases v with
  | null => exact ⟨by simp [chars], by simp [chars, marks]⟩
  | bool b => cases b <;> exact ⟨by simp [chars], by simp [chars, marks]⟩
  | num n =>
    refine ⟨n.chars_ne_nil, fun c hc => ?_⟩
    rcases Number.mem_chars hc with hdigit | hsign
    · exact not_mem_marks_of_isDigit hdigit
    · have hnone : "-+.eNainf".toList.all (!marks.contains ·) = true := by decide
      simpa using List.all_eq_true.mp hnone c hsign
  | str s => cases hv
  | arr items => cases hv
  | obj members => cases hv

/-- No word is a number. -/
theorem chars_num_ne (n : Number) {v : Json} (h : 'l' ∈ v.chars ∨ 't' ∈ v.chars) :
    (num n).chars ≠ v.chars := by
  intro heq
  rw [← heq] at h
  rcases h with h | h <;> simpa using Number.mem_chars (n := n) h

theorem eq_of_chars_eq {v w : Json} (hv : v.isPlain = true) (hw : w.isPlain = true)
    (h : v.chars = w.chars) : v = w := by
  cases v with
  | null =>
    cases w with
    | null => rfl
    | bool b => cases b <;> simp [chars] at h
    | num n => exact absurd h.symm (chars_num_ne n (by simp [chars]))
    | _ => cases hw
  | bool b =>
    cases w with
    | null => cases b <;> simp [chars] at h
    | bool b' => cases b <;> cases b' <;> simp [chars] at h ⊢
    | num n => exact absurd h.symm (chars_num_ne n (by cases b <;> simp [chars]))
    | _ => cases hw
  | num n =>
    cases w with
    | null => exact absurd h (chars_num_ne n (by simp [chars]))
    | bool b => exact absurd h (chars_num_ne n (by cases b <;> simp [chars]))
    | num m => exact congrArg num (Number.chars_injective h)
    | _ => cases hw
  | str s => cases hv
  | arr items => cases hv
  | obj members => cases hv

/-- From the text of `a` and what follows it, both can be told. -/
def Separates {α : Type} (f : α → List Char) (a : α) : Prop :=
  ∀ b x y, Ended x → Ended y → f a ++ x = f b ++ y → a = b ∧ x = y

/-- Texts with commas between them. -/
def listed {α : Type} (f : α → List Char) : List α → List Char
  | [] => []
  | a :: as => f a ++ as.flatMap fun b => ',' :: f b

/-- A name and its value. -/
def memberChars (m : String × Json) : List Char := quoted m.1 ++ ':' :: m.2.chars

theorem charsItems_eq : ∀ items : List Json, charsItems items = listed chars items
  | [] => by rw [charsItems, listed]
  | [a] => by simp [charsItems, listed]
  | a :: b :: as => by simp [charsItems, charsItems_eq (b :: as), listed]

theorem charsMembers_eq : ∀ members : List (String × Json),
    charsMembers members = listed memberChars members
  | [] => by rw [charsMembers, listed]
  | [(k, a)] => by simp [charsMembers, listed, memberChars]
  | (k, a) :: b :: as => by simp [charsMembers, charsMembers_eq (b :: as), listed, memberChars]

section Listed
variable {α : Type} {f : α → List Char} {close : Char} {as bs : List α} {x y : List Char}
variable (hclose : close ∈ marks)
include hclose

theorem ended_flatMap (as : List α) (x : List Char) :
    Ended ((as.flatMap fun a => ',' :: f a) ++ close :: x) := by
  cases as with
  | nil => exact ended_cons hclose x
  | cons a as => exact ended_cons (by decide) _

variable (has : ∀ a ∈ as, Separates f a)
include has

theorem flatMap_append_inj (hcomma : close ≠ ',')
    (h : (as.flatMap fun a => ',' :: f a) ++ close :: x =
      (bs.flatMap fun b => ',' :: f b) ++ close :: y) : as = bs ∧ x = y := by
  induction as generalizing bs with
  | nil =>
    cases bs with
    | nil => exact ⟨rfl, (List.cons.inj h).2⟩
    | cons b bs => exact absurd (List.cons.inj h).1 hcomma
  | cons a as ih =>
    cases bs with
    | nil => exact absurd (List.cons.inj h).1.symm hcomma
    | cons b bs =>
      obtain ⟨ha, has⟩ := List.forall_mem_cons.mp has
      simp only [List.flatMap_cons, List.cons_append, List.append_assoc, List.cons.injEq,
        true_and] at h
      obtain ⟨rfl, hrest⟩ := ha b _ _ (ended_flatMap hclose as x) (ended_flatMap hclose bs y) h
      obtain ⟨rfl, hxy⟩ := ih has hrest
      exact ⟨rfl, hxy⟩

/-- A list ends where its bracket is closed. -/
theorem listed_append_inj (hcomma : close ≠ ',') (hopen : ∀ a u v, f a ++ u ≠ close :: v)
    (h : listed f as ++ close :: x = listed f bs ++ close :: y) : as = bs ∧ x = y := by
  cases as with
  | nil =>
    cases bs with
    | nil => exact ⟨rfl, (List.cons.inj h).2⟩
    | cons b bs =>
      rw [listed, listed, List.append_assoc] at h
      exact absurd h.symm (hopen b _ _)
  | cons a as =>
    cases bs with
    | nil =>
      rw [listed, listed, List.append_assoc] at h
      exact absurd h (hopen a _ _)
    | cons b bs =>
      obtain ⟨ha, has⟩ := List.forall_mem_cons.mp has
      simp only [listed, List.append_assoc] at h
      obtain ⟨rfl, hrest⟩ := ha b _ _ (ended_flatMap hclose as x) (ended_flatMap hclose bs y) h
      obtain ⟨rfl, hxy⟩ := flatMap_append_inj hclose has hcomma hrest
      exact ⟨rfl, hxy⟩

end Listed

/-- Other values begin with a mark that ends no value. -/
theorem exists_chars_cons {v : Json} (hv : ¬v.isPlain = true) :
    ∃ c t, v.chars = c :: t ∧ c ∈ ['"', '[', '{'] := by
  cases v with
  | str s => exact ⟨'"', _, rfl, by decide⟩
  | arr items => exact ⟨'[', _, rfl, by decide⟩
  | obj members => exact ⟨'{', _, rfl, by decide⟩
  | _ => exact absurd rfl hv

theorem chars_append_ne (v : Json) {close : Char} (hclose : close ∈ [']', '}']) (x y : List Char) :
    v.chars ++ x ≠ close :: y := by
  by_cases hv : v.isPlain = true
  · refine (bare_chars hv).append_ne ?_ x y
    simp only [List.mem_cons, List.not_mem_nil, or_false] at hclose
    rcases hclose with rfl | rfl <;> decide
  · obtain ⟨c, t, hct, hc⟩ := exists_chars_cons hv
    rw [hct]
    intro h
    rw [(List.cons.inj h).1] at hc
    simp only [List.mem_cons, List.not_mem_nil, or_false] at hclose
    rcases hclose with rfl | rfl <;> revert hc <;> decide

theorem separates_plain {v : Json} (hv : v.isPlain = true) : Separates chars v := by
  intro w x y hx hy h
  by_cases hw : w.isPlain = true
  · obtain ⟨hvw, hxy⟩ := (bare_chars hv).append_inj (bare_chars hw) hx hy h
    exact ⟨eq_of_chars_eq hv hw hvw, hxy⟩
  · obtain ⟨c, t, hct, hc⟩ := exists_chars_cons hw
    rw [hct] at h
    refine absurd h ((bare_chars hv).append_ne ?_ x _)
    simp only [List.mem_cons, List.not_mem_nil, or_false] at hc
    rcases hc with rfl | rfl | rfl <;> decide

/-- It is enough to tell a value from those that are no words or numbers. -/
theorem separates_of_plain {v : Json} (h : ∀ w x y, Ended x → Ended y → ¬w.isPlain = true →
    v.chars ++ x = w.chars ++ y → v = w ∧ x = y) : Separates chars v := by
  intro w x y hx hy heq
  by_cases hw : w.isPlain = true
  · obtain ⟨hwv, hyx⟩ := separates_plain hw v y x hy hx heq.symm
    exact ⟨hwv.symm, hyx.symm⟩
  · exact h w x y hx hy hw heq

theorem separates_memberChars {m : String × Json} (hm : Separates chars m.2) :
    Separates memberChars m := by
  intro m' x y hx hy h
  simp only [memberChars, List.append_assoc] at h
  obtain ⟨hname, hrest⟩ := quoted_append_inj h
  obtain ⟨hvalue, hxy⟩ := hm m'.2 x y hx hy (List.cons.inj hrest).2
  exact ⟨Prod.ext hname hvalue, hxy⟩

/-- A value is told from all others by its first character, if it is a mark, and then by its parts;
what has no mark in front is told as a whole. -/
theorem separates_chars (v : Json) : Separates chars v := by
  induction v using induct with
  | null => exact separates_plain rfl
  | bool b => exact separates_plain rfl
  | num n => exact separates_plain rfl
  | str s =>
    refine separates_of_plain fun w x y hx hy hw h => ?_
    cases w with
    | str t =>
      obtain ⟨rfl, hxy⟩ := quoted_append_inj h
      exact ⟨rfl, hxy⟩
    | _ => simp_all [chars, quoted, isPlain]
  | arr items ih =>
    refine separates_of_plain fun w x y hx hy hw h => ?_
    cases w with
    | arr items' =>
      simp only [chars, charsItems_eq, List.cons_append, List.append_assoc, List.cons.injEq,
        true_and, List.nil_append] at h
      obtain ⟨rfl, hxy⟩ := listed_append_inj (by decide) ih (by decide)
        (fun a => a.chars_append_ne (by decide)) h
      exact ⟨rfl, hxy⟩
    | _ => simp_all [chars, quoted, isPlain]
  | obj members ih =>
    refine separates_of_plain fun w x y hx hy hw h => ?_
    cases w with
    | obj members' =>
      simp only [chars, charsMembers_eq, List.cons_append, List.append_assoc, List.cons.injEq,
        true_and, List.nil_append] at h
      obtain ⟨rfl, hxy⟩ := listed_append_inj (by decide)
        (fun m hm => separates_memberChars (ih m hm)) (by decide)
        (fun a u v => by simp [memberChars, quoted]) h
      exact ⟨rfl, hxy⟩
    | _ => simp_all [chars, quoted, isPlain]

/-- Different values have different texts. -/
theorem chars_injective : Function.Injective chars := fun v w h =>
  (separates_chars v w [] [] (fun _ _ h => by cases h) (fun _ _ h => by cases h) (by simp [h])).1

/-- No control characters of ASCII but the last. -/
def Written (s : List Char) : Prop := ∀ c ∈ s, 32 ≤ c.toNat

theorem Written.append {s t : List Char} (hs : Written s) (ht : Written t) : Written (s ++ t) :=
  List.forall_mem_append.mpr ⟨hs, ht⟩

theorem Written.cons {c : Char} {s : List Char} (hc : 32 ≤ c.toNat) (hs : Written s) :
    Written (c :: s) :=
  List.forall_mem_cons.mpr ⟨hc, hs⟩

theorem written_nil : Written [] := fun _ hc => by cases hc

theorem written_escape (c : Char) : Written (escape c) := by
  by_cases hc : c ∈ specials
  · exact (escape_of_mem hc).2.1
  · rw [escape_of_not_mem hc]
    exact written_nil.cons (toNat_of_not_mem_specials hc)

theorem written_quoted (s : String) : Written (quoted s) := by
  refine .cons (by decide) (.append ?_ (written_nil.cons (by decide)))
  intro c hc
  obtain ⟨d, -, hd⟩ := List.mem_flatMap.mp hc
  exact written_escape d c hd

theorem written_num (n : Number) : Written n.chars := by
  intro c hc
  rcases Number.mem_chars hc with hdigit | hsign
  · exact le_trans (by decide) (Char.isDigit_iff_toNat.mp hdigit).1
  · have hall : "-+.eNainf".toList.all (32 ≤ ·.toNat) = true := by decide
    exact of_decide_eq_true (List.all_eq_true.mp hall c hsign)

theorem written_listed {α : Type} {f : α → List Char} {as : List α}
    (has : ∀ a ∈ as, Written (f a)) : Written (listed f as) := by
  cases as with
  | nil => exact written_nil
  | cons a as =>
    obtain ⟨ha, has⟩ := List.forall_mem_cons.mp has
    refine ha.append fun c hc => ?_
    obtain ⟨b, hb, hc⟩ := List.mem_flatMap.mp hc
    exact (has b hb).cons (by decide) c hc

/-- Control characters inside quotes are escaped, and there are none elsewhere. -/
theorem written_chars (v : Json) : Written v.chars := by
  induction v using induct with
  | null => simp [chars, Written]
  | bool b => cases b <;> simp [chars, Written]
  | num n => exact written_num n
  | str s => exact written_quoted s
  | arr items ih =>
    rw [chars, charsItems_eq]
    exact .cons (by decide) ((written_listed ih).append (written_nil.cons (by decide)))
  | obj members ih =>
    have hmembers : ∀ m ∈ members, Written (memberChars m) := fun m hm =>
      (written_quoted m.1).append ((ih m hm).cons (by decide))
    rw [chars, charsMembers_eq]
    exact .cons (by decide) ((written_listed hmembers).append (written_nil.cons (by decide)))

end Json
end Switchboard
