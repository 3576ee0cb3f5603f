import Mathlib.Data.List.TakeWhile
import Switchboard.Proofs.Calendar.Days
import Switchboard.Proofs.Calendar.Text

/-! Instants as they are read, and their texts. What an instant has beyond milliseconds is not in
its text; all else is read back. -/
namespace Switchboard.Calendar

/-- A time of day to the billionth of a second; leap seconds are the last of their minute. -/
structure Instant.IsTimed (t : Instant) : Prop where
  second_lt : t.second < 86400
  nano_lt : t.nano < 2000000000
  leap : 1000000000 ≤ t.nano → t.second % 60 = 59

theorem takeNano_lt {s rest : List Char} {n : Nat} (h : takeNano s = some (n, rest)) :
    n < 1000000000 := by
  unfold takeNano at h
  split at h
  · rename_i s
    simp only at h
    split at h
    · cases h
    · obtain ⟨rfl, -⟩ := Prod.mk.inj (Option.some.inj h)
      have hdigits : ((s.takeWhile Char.isDigit).take 9).all Char.isDigit = true :=
        List.all_eq_true.mpr fun c hc =>
          List.mem_takeWhile_imp (List.mem_of_mem_take hc)
      have hlen : ((s.takeWhile Char.isDigit).take 9).length ≤ 9 := List.length_take_le 9 _
      have hlt := Decimal.readDigits_lt hdigits 0
      generalize (s.takeWhile Char.isDigit).take 9 = kept at hlen hlt
      rw [Nat.zero_add, Nat.one_mul] at hlt
      calc Decimal.readDigits 0 kept * 10 ^ (9 - kept.length)
          < 10 ^ kept.length * 10 ^ (9 - kept.length) :=
            Nat.mul_lt_mul_of_pos_right hlt (Nat.pow_pos (by decide))
        _ = 10 ^ 9 := by rw [← Nat.pow_add, Nat.add_sub_cancel' hlen]
  · obtain ⟨rfl, -⟩ := Prod.mk.inj (Option.some.inj h)
    decide

/-- An offset is made of hours and minutes. -/
theorem dvd_of_takeOffset {s rest : List Char} {o : Int} (h : takeOffset s = some (o, rest)) :
    60 ∣ o := by
  unfold takeOffset at h
  split at h
  · split at h
    · obtain ⟨rfl, -⟩ := Prod.mk.inj (Option.some.inj h)
      exact Int.dvd_zero 60
    · split at h
      · obtain ⟨⟨hours, s⟩, -, h⟩ := Option.bind_eq_some_iff.mp h
        obtain ⟨s, -, h⟩ := Option.bind_eq_some_iff.mp h
        obtain ⟨⟨minutes, s⟩, -, h⟩ := Option.bind_eq_some_iff.mp h
        simp only at h
        split at h
        · obtain ⟨rfl, -⟩ := Prod.mk.inj (Option.some.inj h)
          split <;> omega
        · cases h
      · cases h
  · cases h

/-- What a time of day holds, before any offset. -/
def IsClock (t : Nat × Nat) : Prop := t.2 < 2000000000 ∧ (1000000000 ≤ t.2 → t.1 % 60 = 59)

theorem isClock_of_time? {hour minute second nano : Nat} (hn : nano < 1000000000) {t : Nat × Nat}
    (h : time? hour minute second nano = some t) : IsClock t := by
  unfold time? at h
  unfold IsClock
  split at h
  · split at h <;> cases h <;> simp only <;> omega
  · cases h

theorem isClock_of_clock? {s : List Char} {t : Nat × Nat} (h : clock? s = some t) : IsClock t := by
  obtain ⟨⟨hour, s⟩, -, h⟩ := Option.bind_eq_some_iff.mp h
  obtain ⟨s, -, h⟩ := Option.bind_eq_some_iff.mp h
  obtain ⟨⟨minute, s⟩, -, h⟩ := Option.bind_eq_some_iff.mp h
  obtain ⟨s, -, h⟩ := Option.bind_eq_some_iff.mp h
  obtain ⟨⟨second, s⟩, -, h⟩ := Option.bind_eq_some_iff.mp h
  simp only at h
  split at h
  · exact isClock_of_time? (by decide) h
  · cases h

/-- Offsets are whole minutes, so a leap second stays the last of its minute. -/
theorem isTimed_instantAt (d : Date) {t : Nat × Nat} {offset : Int} (hoffset : 60 ∣ offset)
    (ht : IsClock t) : (instantAt d t.1 t.2 offset).IsTimed := by
  have hsecond : ((Int.fmod (t.1 - offset) 86400).toNat : Int) = (t.1 - offset) % 86400 := by
    rw [Int.fmod_eq_emod_of_nonneg _ (by decide)]
    exact Int.toNat_of_nonneg (Int.emod_nonneg _ (by decide))
  refine ⟨?_, ht.1, fun hleap => ?_⟩
  · show (Int.fmod (t.1 - offset) 86400).toNat < 86400
    omega
  · have hlast := ht.2 hleap
    show (Int.fmod (t.1 - offset) 86400).toNat % 60 = 59
    omega

theorem isTimed_ofMillis? {ms : Int} {t : Instant} (h : Instant.ofMillis? ms = some t) :
    t.IsTimed := by
  have hrest : ((Int.fmod ms 86400000).toNat : Int) = ms % 86400000 := by
    rw [Int.fmod_eq_emod_of_nonneg _ (by decide)]
    exact Int.toNat_of_nonneg (Int.emod_nonneg _ (by decide))
  unfold Instant.ofMillis? at h
  simp only at h
  split at h
  · cases h
    refine ⟨?_, ?_, fun hleap => ?_⟩ <;> simp only at * <;> omega
  · cases h

theorem isTimed_of_timestamp? {s : List Char} {t : Instant} (h : timestamp? s = some t) :
    t.IsTimed := by
  obtain ⟨⟨year, s⟩, -, h⟩ := Option.bind_eq_some_iff.mp h
  obtain ⟨s, -, h⟩ := Option.bind_eq_some_iff.mp h
  obtain ⟨⟨month, s⟩, -, h⟩ := Option.bind_eq_some_iff.mp h
  obtain ⟨s, -, h⟩ := Option.bind_eq_some_iff.mp h
  obtain ⟨⟨day, s⟩, -, h⟩ := Option.bind_eq_some_iff.mp h
  simp only at h
  split at h
  · cases h
  · split at h
    · obtain ⟨⟨hour, s⟩, -, h⟩ := Option.bind_eq_some_iff.mp h
      obtain ⟨s, -, h⟩ := Option.bind_eq_some_iff.mp h
      obtain ⟨⟨minute, s⟩, -, h⟩ := Option.bind_eq_some_iff.mp h
      obtain ⟨s, -, h⟩ := Option.bind_eq_some_iff.mp h
      obtain ⟨⟨second, s⟩, -, h⟩ := Option.bind_eq_some_iff.mp h
      obtain ⟨⟨nano, s⟩, hnano, h⟩ := Option.bind_eq_some_iff.mp h
      obtain ⟨⟨offset, s⟩, hoffset, h⟩ := Option.bind_eq_some_iff.mp h
      obtain ⟨d, -, h⟩ := Option.bind_eq_some_iff.mp h
      obtain ⟨time, htime, h⟩ := Option.bind_eq_some_iff.mp h
      simp only at h
      split at h
      · cases h
        exact isTimed_instantAt d (dvd_of_takeOffset hoffset)
          (isClock_of_time? (takeNano_lt hnano) htime)
      · cases h
    · cases h

theorem isTimed_of_spaced? {s : List Char} {t : Instant} (h : spaced? s = some t) : t.IsTimed := by
  obtain ⟨⟨d, s⟩, -, h⟩ := Option.bind_eq_some_iff.mp h
  obtain ⟨time, htime, h⟩ := Option.bind_eq_some_iff.mp h
  cases h
  exact isTimed_instantAt d (Int.dvd_zero 60) (isClock_of_clock? htime)

theorem isTimed_of_joined? {s : List Char} {t : Instant} (h : joined? s = some t) : t.IsTimed := by
  obtain ⟨⟨d, s⟩, -, h⟩ := Option.bind_eq_some_iff.mp h
  obtain ⟨s, -, h⟩ := Option.bind_eq_some_iff.mp h
  obtain ⟨time, htime, h⟩ := Option.bind_eq_some_iff.mp h
  cases h
  exact isTimed_instantAt d (Int.dvd_zero 60) (isClock_of_clock? htime)

theorem isTimed_of_midnight? {s : List Char} {t : Instant} (h : midnight? s = some t) :
    t.IsTimed := by
  obtain ⟨⟨d, s⟩, -, h⟩ := Option.bind_eq_some_iff.mp h
  simp only at h
  split at h
  · cases h
    exact isTimed_instantAt d (Int.dvd_zero 60) (t := (0, 0)) (by unfold IsClock; decide)
  · cases h

/-- Whichever way a text is read, the instant has a time of day. -/
theorem isTimed_of_ofChars? {s : List Char} {t : Instant} (h : Instant.ofChars? s = some t) :
    t.IsTimed := by
  unfold Instant.ofChars? at h
  simp only [Option.orElse_eq_some] at h
  rcases h with h | ⟨-, h | ⟨-, h | ⟨-, h | ⟨-, h⟩⟩⟩⟩
  · exact isTimed_of_timestamp? h
  · exact isTimed_of_spaced? h
  · exact isTimed_of_joined? h
  · exact isTimed_of_midnight? h
  · obtain ⟨ms, -, h⟩ := Option.bind_eq_some_iff.mp h
    exact isTimed_ofMillis? h

namespace Instant

/-- The instant to the millisecond. -/
def cut (t : Instant) : Instant := { t with nano := t.nano - t.nano % 1000000 }

/-- The day of an instant is one of a year of four digits. -/
def HasPlainYear (t : Instant) : Prop :=
  0 ≤ (Date.ofDays t.days).year ∧ (Date.ofDays t.days).year ≤ 9999

variable {t : Instant}

theorem millis_lt (t : Instant) : t.millis < 1000 := by
  unfold millis
  omega

theorem text_eq_of {u : Instant} (hdays : t.days = u.days) (hsecond : t.second = u.second)
    (hwhole : t.nano / 1000000000 = u.nano / 1000000000) (hmillis : t.millis = u.millis) :
    t.text = u.text := by
  rw [text, timeText, hdays, hsecond, hwhole, hmillis, text, timeText]

/-- What is cut off is not in the text. -/
theorem text_cut (t : Instant) : t.cut.text = t.text := by
  have hnano : t.cut.nano = t.nano - t.nano % 1000000 := rfl
  refine text_eq_of rfl rfl ?_ ?_
  · rw [hnano]
    omega
  · rw [millis, millis, hnano]
    omega

/-- The parts of the date of an instant, as its texts have them. -/
theorem HasPlainYear.date (h : t.HasPlainYear) : ∃ year month day : Nat,
    Date.ofDays t.days = ⟨year, month, day⟩ ∧ year < 10000 ∧ month < 100 ∧ day < 100 ∧
      (Date.mk year month day).isValid = true := by
  obtain ⟨year, hyear⟩ := Int.eq_ofNat_of_zero_le h.1
  have hdate : Date.ofDays t.days =
      ⟨(year : Int), (Date.ofDays t.days).month, (Date.ofDays t.days).day⟩ := by
    rw [← hyear]
  have hlast := h.2
  have hvalid : (Date.ofDays t.days).isValid = true := by
    refine isValid_ofDays ?_
    simp only [yearInRange, Bool.and_eq_true, decide_eq_true_eq]
    omega
  have hparts := hvalid
  simp only [Date.isValid, Bool.and_eq_true, decide_eq_true_eq] at hparts
  obtain ⟨⟨⟨-, hmonth⟩, -⟩, hday⟩ := hparts
  have hlength : daysInMonth (Date.ofDays t.days).year (Date.ofDays t.days).month ≤ 31 := by
    unfold daysInMonth
    split
    · split <;> decide
    · split <;> decide
  exact ⟨year, _, _, hdate, by omega, by omega, by omega, hdate ▸ hvalid⟩

section Clock
variable {second : Nat}

theorem time?_second (h : second < 86400) (nano : Nat) :
    time? (second / 3600) (second / 60 % 60) (second % 60) nano = some (second, nano) := by
  have hparts : second / 3600 * 3600 + second / 60 % 60 * 60 + second % 60 = second := by omega
  rw [time?, if_pos (by omega), if_neg (by omega), hparts]

/-- The last second of a minute goes on as its sixtieth. -/
theorem time?_leap (h : second < 86400) (hlast : second % 60 = 59) (nano : Nat) :
    time? (second / 3600) (second / 60 % 60) (second % 60 + 1) nano =
      some (second, 1000000000 + nano) := by
  have hparts : second / 3600 * 3600 + second / 60 % 60 * 60 + 59 = second := by omega
  rw [time?, if_pos (by omega), if_pos (by omega), hparts]

theorem instantAt_zero (d : Date) (h : second < 86400) (nano : Nat) :
    instantAt d second nano 0 = ⟨d.toDays, second, nano⟩ := by
  have hdiv : (second : Int) / 86400 = 0 := by omega
  have hmod : (second : Int) % 86400 = second := by omega
  rw [instantAt, Int.sub_zero, Int.fdiv_eq_ediv_of_nonneg _ (by decide),
    Int.fmod_eq_emod_of_nonneg _ (by decide), hdiv, hmod, Int.add_zero, Int.toNat_natCast]

end Clock

/-- The text of an instant is read as that instant to the millisecond. -/
theorem ofChars?_text (ht : t.IsTimed) (hy : t.HasPlainYear) : ofChars? t.text = some t.cut := by
  obtain ⟨year, month, day, hdate, hyear, hmonth, hday, hvalid⟩ := hy.date
  have hms := t.millis_lt
  have hsecond := ht.second_lt
  have hnano := ht.nano_lt
  have htext : t.text = stampText year month day (t.second / 3600) (t.second / 60 % 60)
      (t.second % 60 + t.nano / 1000000000) t.millis := by
    rw [text, hdate, Date.text_eq hyear, stampText, timeText]
    simp only [List.append_assoc, List.cons_append]
  have htime : time? (t.second / 3600) (t.second / 60 % 60) (t.second % 60 + t.nano / 1000000000)
      (t.millis * 1000000) = some (t.second, t.cut.nano) := by
    -- A leap second is written as the sixtieth and read as the one before it.
    by_cases hn : t.nano < 1000000000
    · have hcut : t.cut.nano = t.millis * 1000000 := by
        show t.nano - t.nano % 1000000 = t.nano % 1000000000 / 1000000 * 1000000
        omega
      rw [Nat.div_eq_of_lt hn, hcut]
      exact time?_second hsecond _
    · have hcut : t.cut.nano = 1000000000 + t.millis * 1000000 := by
        show t.nano - t.nano % 1000000 =
          1000000000 + t.nano % 1000000000 / 1000000 * 1000000
        omega
      have hone : t.nano / 1000000000 = 1 := by omega
      rw [hone, hcut]
      exact time?_leap hsecond (ht.leap (Nat.le_of_not_lt hn)) _
  have hstamp := timestamp?_stampText hyear hmonth hday hvalid (by omega) (by omega) (by omega) hms
    htime
  have hdays : (Date.mk year month day).toDays = t.days := by
    rw [← hdate, toDays_ofDays]
  rw [ofChars?, htext, hstamp, instantAt_zero _ ht.second_lt, hdays]
  rfl

/-- The date of an instant is read as the midnight before it. -/
theorem ofChars?_date (hy : t.HasPlainYear) :
    ofChars? (Date.ofDays t.days).text = some ⟨t.days, 0, 0⟩ := by
  obtain ⟨year, month, day, hdate, hyear, hmonth, hday, hvalid⟩ := hy.date
  have hdays : (Date.mk year month day).toDays = t.days := by
    rw [← hdate, toDays_ofDays]
  rw [hdate, Date.text_eq hyear, ofChars?_dateText hyear hmonth hday hvalid, hdays]

end Instant
end Switchboard.Calendar
