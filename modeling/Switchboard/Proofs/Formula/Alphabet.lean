import Switchboard.Proofs.Formula.Reading
import Switchboard.Proofs.Text.Classes
import Switchboard.Rule.Engine

/-! The characters that arithmetic may be written in, and those that its tokens are made of. They
are the same but for the decimal digits of other scripts, which are let in and then refused. -/
namespace Switchboard
namespace Formula

/-- White space, the digits of ASCII, the point, the operators and the parentheses. -/
def isRecognised (c : Char) : Bool :=
  Text.isWhite c || c.isDigit || ".+-*/%()".toList.contains c

theorem isSome_sign? (c : Char) : (sign? c).isSome = "+-*/%()".toList.contains c := by
  unfold sign?
  repeat' split
  all_goals simp_all

theorem isRecognised_eq (c : Char) :
    isRecognised c = (isNumberChar c || Text.isWhite c || (sign? c).isSome) := by
  have hpoint : ".+-*/%()".toList.contains c = (c == '.' || "+-*/%()".toList.contains c) := rfl
  rw [isRecognised, hpoint, isSome_sign?, isNumberChar]
  ac_rfl

/-- What is let in beyond the characters of tokens are digits. -/
theorem isAllowed_iff (c : Char) :
    isAllowed c = true ↔ isRecognised c = true ∨ Text.isAnyDigit c = true := by
  rw [isRecognised_eq, isNumberChar, isAllowed]
  simp only [Bool.or_eq_true]
  have hdigit := Text.isAnyDigit_of_isDigit (c := c)
  grind

theorem isArithmetic_iff (s : String) :
    isArithmetic s = true ↔
      s ≠ "" ∧ ∀ c ∈ s.toList, isRecognised c = true ∨ Text.isAnyDigit c = true := by
  simp only [isArithmetic, Bool.and_eq_true, decide_eq_true_eq, List.all_eq_true, isAllowed_iff]

theorem endNumber_cases (run : List Char) :
    (∃ ts, tokens.endNumber run = .ok ts) ∨
      run ≠ [] ∧ tokens.endNumber run = .error (.strange (String.ofList run)) := by
  unfold tokens.endNumber
  by_cases h : run = []
  · exact .inl ⟨[], if_pos h⟩
  · rw [if_neg h]
    cases Decimal.float? run with
    | some x => exact .inl ⟨_, rfl⟩
    | none => exact .inr ⟨h, rfl⟩

/-- A character that no token is made of is refused, if not for itself then for a numeral before
it. -/
theorem tokens_of_unrecognised {s : List Char} (run : List Char)
    (h : ∃ c ∈ s, isRecognised c = false) : ∃ text, tokens run s = .error (.strange text) := by
  induction s generalizing run with
  | nil => simp at h
  | cons a s ih =>
    obtain ⟨c, hc, hnot⟩ := h
    have hrest (ha : isRecognised a = true) : ∃ c ∈ s, isRecognised c = false := by
      rcases List.mem_cons.mp hc with rfl | hc
      · rw [ha] at hnot
        cases hnot
      · exact ⟨c, hc, hnot⟩
    rw [isRecognised_eq] at hrest
    rw [tokens]
    by_cases hnumber : isNumberChar a = true
    · rw [if_pos hnumber]
      exact ih _ (hrest (by simp [hnumber]))
    · rw [if_neg hnumber]
      rcases endNumber_cases run with ⟨ts, hts⟩ | ⟨-, hts⟩
      · rw [hts, Except.ok_bind]
        by_cases hwhite : Text.isWhite a = true
        · obtain ⟨text, htext⟩ := ih [] (hrest (by simp [hwhite]))
          exact ⟨text, by rw [if_pos hwhite, htext]; rfl⟩
        · rw [if_neg hwhite]
          cases hsign : sign? a with
          | some t =>
            obtain ⟨text, htext⟩ := ih [] (hrest (by simp [hsign]))
            exact ⟨text, by rw [htext]; rfl⟩
          | none => exact ⟨_, rfl⟩
      · exact ⟨_, by rw [hts]; rfl⟩

/-- What is refused is a piece of the text. -/
theorem text_of_tokens_error {s run : List Char} {e : Error} (h : tokens run s = .error e) :
    ∃ text : List Char, (∀ c ∈ text, c ∈ run ++ s) ∧ e = .strange (String.ofList text) := by
  induction s generalizing run e with
  | nil =>
    rw [tokens] at h
    rcases endNumber_cases run with ⟨ts, hts⟩ | ⟨-, hts⟩
    · rw [hts] at h
      cases h
    · rw [hts] at h
      exact ⟨run, by simp, (Except.error.inj h).symm⟩
  | cons a s ih =>
    have hlater {x : Error} (hx : tokens [] s = .error x) :
        ∃ text : List Char,
          (∀ c ∈ text, c ∈ run ++ a :: s) ∧ x = .strange (String.ofList text) := by
      obtain ⟨text, htext, hx⟩ := ih hx
      exact ⟨text, fun c hc => List.mem_append_right _ (List.mem_cons_of_mem _ (htext c hc)), hx⟩
    rw [tokens] at h
    by_cases hnumber : isNumberChar a = true
    · rw [if_pos hnumber] at h
      obtain ⟨text, htext, hx⟩ := ih h
      exact ⟨text, by simpa using htext, hx⟩
    · rw [if_neg hnumber] at h
      rcases Except.bind_eq_error.mp h with hrun | ⟨ts, -, h⟩
      · rcases endNumber_cases run with ⟨ts, hts⟩ | ⟨-, hts⟩
        · rw [hts] at hrun
          cases hrun
        · rw [hts] at hrun
          exact ⟨run, fun c hc => List.mem_append_left _ hc, (Except.error.inj hrun).symm⟩
      · by_cases hwhite : Text.isWhite a = true
        · rw [if_pos hwhite] at h
          rcases Except.bind_eq_error.mp h with h | ⟨us, -, h⟩
          · exact hlater h
          · cases h
        · rw [if_neg hwhite] at h
          cases hsign : sign? a with
          | some t =>
            simp only [hsign] at h
            rcases Except.bind_eq_error.mp h with h | ⟨us, -, h⟩
            · exact hlater h
            · cases h
          | none =>
            simp only [hsign] at h
            exact ⟨[a], by simp, (Except.error.inj h).symm⟩

/-- No character is refused that is not in the text. -/
theorem tokens_ne_strange {s : List Char} {c : Char} (hc : c ∉ s) :
    tokens [] s ≠ .error (.strange c.toString) := by
  intro h
  obtain ⟨text, htext, hx⟩ := text_of_tokens_error h
  have hone : [c] = text := String.ofList_injective (Error.strange.inj hx)
  exact hc (htext c (hone ▸ List.mem_singleton_self c))

theorem evaluate_ne_strange {s : String} {c : Char} (hc : c ∉ s.toList) :
    evaluate s ≠ .error (.strange c.toString) := by
  intro h
  cases hts : tokens [] s.toList with
  | error e =>
    unfold evaluate at h
    simp only [hts] at h
    cases h
    exact tokens_ne_strange hc hts
  | ok ts =>
    rw [evaluate_of_tokens hts] at h
    rcases Except.bind_eq_error.mp h with h | ⟨⟨x, rest⟩, -, h⟩
    · have hsound := sound_sum 0 ts
      rw [h] at hsound
      exact hsound c rfl
    · simp only [conclude] at h
      split at h
      · cases h
        exact hc (by simp [Char.toString])
      · split at h <;> cases h

theorem evaluate_of_unrecognised {s : String} (h : ∃ c ∈ s.toList, isRecognised c = false) :
    ∃ text, evaluate s = .error (.strange text) := by
  obtain ⟨text, htext⟩ := tokens_of_unrecognised [] h
  exact ⟨text, by simp only [evaluate, htext]⟩

end Formula

namespace Rule

theorem apply_calculate {r : Rule} {formula : String} (hkind : r.kind = .calculate)
    (hformula : r.settings.expression = some formula) (handlers : Fields Handler)
    (v record : Json) : apply handlers r v record = .ofExcept (calculate formula v record) := by
  simp only [apply, hkind, hformula, Option.map_some, Option.getD_some]

theorem calculate_of_isArithmetic {formula : String} {v record : Json}
    (h : Formula.isArithmetic (Formula.substitute formula v record) = true) :
    calculate formula v record =
      match Formula.evaluate (Formula.substitute formula v record) with
      | .ok x => .ok (.ofFloat x)
      | .error e => .error (.calculation e) := by
  rw [calculate]
  exact if_neg (by rw [h]; exact Bool.false_ne_true)

/-- A formula that is let in with a digit of another script in it always fails. -/
theorem calculate_of_unrecognised {formula : String} {v record : Json}
    (h : Formula.isArithmetic (Formula.substitute formula v record) = true)
    (hnot : ∃ c ∈ (Formula.substitute formula v record).toList, Formula.isRecognised c = false) :
    ∃ text, calculate formula v record = .error (.calculation (.strange text)) := by
  obtain ⟨text, htext⟩ := Formula.evaluate_of_unrecognised hnot
  exact ⟨text, by rw [calculate_of_isArithmetic h, htext]⟩

theorem isRecognised_of_isArithmetic {s : String} (harithmetic : Formula.isArithmetic s = true)
    (hs : ∀ c ∈ s.toList, Text.isAnyDigit c = true → c.isDigit = true) :
    ∀ c ∈ s.toList, Formula.isRecognised c = true := by
  intro c hc
  rcases ((Formula.isArithmetic_iff s).mp harithmetic).2 c hc with h | h
  · exact h
  · simp [Formula.isRecognised, hs c hc h]

/-- A text without digits of other scripts is either made of the characters of tokens, none of which
is ever refused, or, where a formula has been filled in to it, leaves the value alone. -/
theorem calculate_alphabet (s : String)
    (hs : ∀ c ∈ s.toList, Text.isAnyDigit c = true → c.isDigit = true) :
    (Formula.isArithmetic s = true →
        (∀ c ∈ s.toList, Formula.isRecognised c = true) ∧
          ∀ c, Formula.isRecognised c = false →
            Formula.evaluate s ≠ .error (.strange c.toString)) ∧
      ∀ (handlers : Fields Handler) (r : Rule) (formula : String) (v record : Json),
        r.kind = .calculate → r.settings.expression = some formula →
        Formula.substitute formula v record = s →
        (∃ c ∈ s.toList, Formula.isRecognised c = false) →
          apply handlers r v record = .value v := by
  refine ⟨fun harithmetic => ?_, ?_⟩
  · have hrecognised := isRecognised_of_isArithmetic harithmetic hs
    refine ⟨hrecognised, fun c hc => Formula.evaluate_ne_strange fun hmem => ?_⟩
    rw [hrecognised c hmem] at hc
    cases hc
  · rintro handlers r formula v record hkind hformula hfilled ⟨c, hc, hstrange⟩
    have hrefused : Formula.isArithmetic s = false := by
      refine Bool.eq_false_iff.mpr fun harithmetic => ?_
      rw [isRecognised_of_isArithmetic harithmetic hs c hc] at hstrange
      cases hstrange
    have hvalue : calculate formula v record = .ok v := by
      rw [calculate]
      exact if_pos (by rw [hfilled, hrefused]; rfl)
    rw [apply_calculate hkind hformula, hvalue]
    rfl

/-- Whether all digits of a text are those of ASCII can be tested. -/
theorem asciiDigits_of_all {s : List Char}
    (h : (s.all fun c => !Text.isAnyDigit c || c.isDigit) = true) :
    ∀ c ∈ s, Text.isAnyDigit c = true → c.isDigit = true := fun c hc hdigit => by
  simpa [hdigit] using List.all_eq_true.mp h c hc

/-- An amount with its currency is no arithmetic; a plain one is. -/
theorem calculate_alphabet_amount :
    (∀ c, Formula.isRecognised c = false →
        Formula.evaluate "(2.5 *\t3)" ≠ .error (.strange c.toString)) ∧
      apply [] ⟨"r", "a", "b", .calculate, { expression := some "\x7bvalue\x7d * 2" }⟩
          (.str "3 $") (.obj []) = .value (.str "3 $") := by
  have hfilled : Formula.substitute "\x7bvalue\x7d * 2" (.str "3 $") (.obj []) = "3 $ * 2" := by
    decide +kernel
  have hplain := asciiDigits_of_all (s := "(2.5 *\t3)".toList) (by decide)
  have hamount := asciiDigits_of_all (s := "3 $ * 2".toList) (by decide)
  exact ⟨((calculate_alphabet "(2.5 *\t3)" hplain).1 (by decide)).2,
    (calculate_alphabet "3 $ * 2" hamount).2 [] _ "\x7bvalue\x7d * 2" (.str "3 $") (.obj []) rfl rfl
      hfilled ⟨'$', by decide, by decide⟩⟩

/-- The Arabic digit three is let in as a digit, and then refused. -/
theorem calculate_alphabet_foreign :
    Formula.isArithmetic "\u0663 * 2" = true ∧ Formula.isRecognised '\u0663' = false ∧
      Formula.evaluate "\u0663 * 2" = .error (.strange "\u0663") ∧
      apply [] ⟨"r", "a", "b", .calculate, { expression := some "\x7bvalue\x7d * 2" }⟩
          (.str "\u0663") (.obj []) = .failed (.calculation (.strange "\u0663")) := by
  have hfilled :
      Formula.substitute "\x7bvalue\x7d * 2" (.str "\u0663") (.obj []) = "\u0663 * 2" := by
    decide +kernel
  have harithmetic : Formula.isArithmetic "\u0663 * 2" = true := by decide
  have hevaluate : Formula.evaluate "\u0663 * 2" = .error (.strange "\u0663") := rfl
  refine ⟨harithmetic, by decide, hevaluate, ?_⟩
  rw [apply_calculate rfl rfl, calculate_of_isArithmetic (by rw [hfilled]; exact harithmetic),
    hfilled, hevaluate]
  rfl

end Rule
end Switchboard
