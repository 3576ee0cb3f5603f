import Switchboard.Calendar.Reader
import Switchboard.Proofs.Decimal.Digits
import Switchboard.Proofs.Text.Ends

/-! Printed dates and times are read back: each number has its full width, so it ends where the next
part begins. -/
namespace Switchboard.Calendar
open Decimal (readDigits)

section Padded
variable {width n : Nat}

theorem length_padded (hw : 0 < width) (h : n < 10 ^ width) : (padded width n).length = width := by
  have hlen : (Nat.toDigits 10 n).length ≤ width :=
    (Nat.length_toDigits_le_iff (by decide) hw).mpr h
  simp only [padded, List.length_append, List.length_replicate]
  omega

theorem all_isDigit_padded (width n : Nat) : (padded width n).all Char.isDigit = true := by
  rw [padded, List.all_append, Decimal.all_isDigit_zeros]
  exact Decimal.all_isDigit_digitsOf n

theorem readDigits_padded (width n : Nat) : readDigits 0 (padded width n) = n := by
  rw [padded, Decimal.readDigits_append, Decimal.readDigits_zeros, Nat.zero_mul]
  exact Decimal.readDigits_digitsOf n

theorem exists_digit_cons_padded (width n : Nat) :
    ∃ c s, padded width n = c :: s ∧ c.isDigit = true := by
  refine Decimal.exists_digit_cons ?_ (all_isDigit_padded width n)
  exact List.append_ne_nil_of_right_ne_nil _ (Decimal.digitsOf_ne_nil n)

/-- A number of full width is read whatever follows. -/
theorem takeNumber_padded {least : Nat} (hl : least ≤ width) (hw : 0 < width)
    (h : n < 10 ^ width) (rest : List Char) :
    takeNumber least width (padded width n ++ rest) = some (n, rest) := by
  have hlen := length_padded hw h
  have hdigits := Decimal.takeWhile_isDigit (all_isDigit_padded width n)
  rw [takeNumber, List.take_left' hlen, hdigits]
  simp only [hlen, if_neg (Nat.not_lt.mpr hl), readDigits_padded, List.drop_left' hlen]

theorem takeNumber_two (h : n < 100) (rest : List Char) :
    takeNumber 2 2 (padded 2 n ++ rest) = some (n, rest) :=
  takeNumber_padded (Nat.le_refl 2) (by decide) h rest

theorem takeNumber_four (h : n < 10000) (rest : List Char) :
    takeNumber 4 4 (padded 4 n ++ rest) = some (n, rest) :=
  takeNumber_padded (Nat.le_refl 4) (by decide) h rest

theorem trimLeft_padded (width n : Nat) (rest : List Char) :
    Text.trimLeft (padded width n ++ rest) = padded width n ++ rest := by
  obtain ⟨c, s, hcs, hc⟩ := exists_digit_cons_padded width n
  rw [hcs, Text.trimLeft, List.cons_append,
    List.dropWhile_cons_of_neg (by simp [Text.isWhite_of_isDigit hc])]

theorem takePart_padded (h : n < 100) (rest : List Char) :
    takePart (padded 2 n ++ rest) = some (n, rest) := by
  rw [takePart, trimLeft_padded]
  exact takeNumber_padded (by decide) (by decide) h rest

theorem takeYear_padded (h : n < 10000) (rest : List Char) :
    takeYear (padded 4 n ++ rest) = some ((n : Int), rest) := by
  obtain ⟨c, s, hcs, hc⟩ := exists_digit_cons_padded 4 n
  have hnumber : takeNumber 1 4 (padded 4 n ++ rest) = some (n, rest) :=
    takeNumber_padded (by decide) (by decide) h rest
  have hminus : c ≠ '-' := Text.ne_of_isMark (Text.isMark_of_isDigit hc) rfl
  have hplus : c ≠ '+' := Text.ne_of_isMark (Text.isMark_of_isDigit hc) rfl
  rw [takeYear, trimLeft_padded]
  rw [hcs, List.cons_append] at hnumber ⊢
  split
  · rename_i heq
    exact absurd (List.cons.inj heq).1 hminus
  · rename_i heq
    exact absurd (List.cons.inj heq).1 hplus
  · rw [hnumber]
    rfl

theorem bounded_padded (width n : Nat) : Text.Bounded Text.isWhite (padded width n) := by
  obtain ⟨c, s, hcs, -⟩ := exists_digit_cons_padded width n
  refine .of_forall (hcs ▸ List.cons_ne_nil c s) fun d hd => ?_
  exact Text.isWhite_of_isDigit (List.all_eq_true.mp (all_isDigit_padded width n) d hd)

end Padded

theorem takeNano_padded {ms : Nat} (h : ms < 1000) :
    takeNano ('.' :: (padded 3 ms ++ ['Z'])) = some (ms * 1000000, ['Z']) := by
  have hlen : (padded 3 ms).length = 3 := length_padded (by decide) h
  have hdigits : (padded 3 ms ++ ['Z']).takeWhile Char.isDigit = padded 3 ms := by
    rw [List.takeWhile_append_of_pos (List.all_eq_true.mp (all_isDigit_padded 3 ms))]
    exact List.append_nil _
  have hne : padded 3 ms ≠ [] := by
    intro hnil
    rw [hnil] at hlen
    cases hlen
  have hkept : (padded 3 ms).take 9 = padded 3 ms := List.take_of_length_le (by omega)
  simp only [takeNano, hdigits, if_neg hne, hkept, hlen, readDigits_padded, List.drop_left' hlen]

theorem takeChar_self (c : Char) (s : List Char) : takeChar c (c :: s) = some s := by
  simp [takeChar]

/-- A part that is there is taken, and the rest is read. -/
theorem bind_of_eq_some {α β : Type} {o : Option α} {a : α} {f : α → Option β} {r : Option β}
    (h : o = some a) (hf : f a = r) : (o >>= f) = r := by
  rw [h]
  exact hf

theorem bounded_yearText (year : Int) : Text.Bounded Text.isWhite (yearText year) := by
  have hminus : Text.Bounded Text.isWhite ['-'] := by decide
  have hplus : Text.Bounded Text.isWhite ['+'] := by decide
  unfold yearText
  split
  · exact hminus.append (bounded_padded 4 _)
  · split
    · exact bounded_padded 4 _
    · exact hplus.append (bounded_padded 4 _)

theorem Date.bounded_text (d : Date) : Text.Bounded Text.isWhite d.text := by
  have h := (bounded_yearText d.year).around (bounded_padded 2 d.day)
    ('-' :: (padded 2 d.month ++ ['-']))
  simpa only [Date.text, List.cons_append, List.append_assoc, List.nil_append] using h

theorem Instant.bounded_text (t : Instant) : Text.Bounded Text.isWhite t.text := by
  have hz : Text.Bounded Text.isWhite ['Z'] := by decide
  have h := (Date.ofDays t.days).bounded_text.around hz
    ('T' :: (t.timeText ++ '.' :: padded 3 t.millis))
  simpa only [Instant.text, List.cons_append, List.append_assoc] using h

/-- A date of four, two and two digits. -/
def dateText (year month day : Nat) : List Char :=
  padded 4 year ++ '-' :: (padded 2 month ++ '-' :: padded 2 day)

section Dates
variable {year month day : Nat}

theorem Date.text_eq (hy : year < 10000) :
    (Date.mk year month day).text = dateText year month day := by
  have hyear : yearText year = padded 4 year := by
    rw [yearText, if_neg (by omega), if_pos (by omega), Int.toNat_natCast]
  rw [Date.text, hyear, List.append_assoc]
  rfl

theorem takeDate_dateText (hy : year < 10000) (hm : month < 100) (hd : day < 100)
    (hvalid : (Date.mk year month day).isValid = true) (rest : List Char) :
    takeDate (dateText year month day ++ rest) = some (⟨year, month, day⟩, rest) := by
  rw [dateText, List.append_assoc, List.cons_append, List.append_assoc, List.cons_append]
  refine bind_of_eq_some (takeYear_padded hy _) ?_
  refine bind_of_eq_some (takeChar_self _ _) ?_
  refine bind_of_eq_some (takePart_padded hm _) ?_
  refine bind_of_eq_some (takeChar_self _ _) ?_
  refine bind_of_eq_some (takePart_padded hd _) ?_
  exact bind_of_eq_some (if_pos hvalid) rfl

/-- A date alone is no timestamp and has no time behind it. -/
theorem ofChars?_dateText (hy : year < 10000) (hm : month < 100) (hd : day < 100)
    (hvalid : (Date.mk year month day).isValid = true) :
    Instant.ofChars? (dateText year month day) = some ⟨(Date.mk year month day).toDays, 0, 0⟩ := by
  have htake := takeDate_dateText hy hm hd hvalid []
  rw [List.append_nil] at htake
  have hstamp : timestamp? (dateText year month day) = none := by
    have hlast := takeNumber_two hd []
    rw [List.append_nil] at hlast
    refine bind_of_eq_some (takeNumber_four hy _) ?_
    refine bind_of_eq_some (takeChar_self _ _) ?_
    refine bind_of_eq_some (takeNumber_two hm _) ?_
    refine bind_of_eq_some (takeChar_self _ _) ?_
    exact bind_of_eq_some hlast rfl
  have hspaced : spaced? (dateText year month day) = none := bind_of_eq_some htake rfl
  have hjoined : joined? (dateText year month day) = none := bind_of_eq_some htake rfl
  have hmidnight : midnight? (dateText year month day) =
      some ⟨(Date.mk year month day).toDays, 0, 0⟩ := by
    refine bind_of_eq_some htake ?_
    simp [instantAt]
  rw [Instant.ofChars?, hstamp, hspaced, hjoined, hmidnight]
  rfl

/-- A timestamp in universal time with three decimals. -/
def stampText (year month day hour minute second ms : Nat) : List Char :=
  dateText year month day ++ 'T' :: (padded 2 hour ++ ':' :: (padded 2 minute ++
    ':' :: (padded 2 second ++ '.' :: (padded 3 ms ++ ['Z']))))

theorem timestamp?_stampText (hy : year < 10000) (hm : month < 100) (hd : day < 100)
    (hvalid : (Date.mk year month day).isValid = true) {hour minute second ms : Nat}
    (hh : hour < 100) (hmi : minute < 100) (hs : second < 100) (hms : ms < 1000) {t : Nat × Nat}
    (ht : time? hour minute second (ms * 1000000) = some t) :
    timestamp? (stampText year month day hour minute second ms) =
      some (instantAt ⟨year, month, day⟩ t.1 t.2 0) := by
  have hoffset : takeOffset ['Z'] = some (0, []) := rfl
  rw [stampText, dateText, List.append_assoc, List.cons_append, List.append_assoc,
    List.cons_append]
  refine bind_of_eq_some (takeNumber_four hy _) ?_
  refine bind_of_eq_some (takeChar_self _ _) ?_
  refine bind_of_eq_some (takeNumber_two hm _) ?_
  refine bind_of_eq_some (takeChar_self _ _) ?_
  refine bind_of_eq_some (takeNumber_two hd _) ?_
  simp only [true_or, if_true]
  refine bind_of_eq_some (takeNumber_two hh _) ?_
  refine bind_of_eq_some (takeChar_self _ _) ?_
  refine bind_of_eq_some (takeNumber_two hmi _) ?_
  refine bind_of_eq_some (takeChar_self _ _) ?_
  refine bind_of_eq_some (takeNumber_two hs _) ?_
  refine bind_of_eq_some (takeNano_padded hms) ?_
  refine bind_of_eq_some hoffset ?_
  refine bind_of_eq_some (if_pos hvalid) ?_
  exact bind_of_eq_some ht rfl

end Dates

end Switchboard.Calendar
