import Mathlib.Order.Monotone.Basic
import Mathlib.Tactic.IntervalCases
import Switchboard.Calendar.Basic

/-! Dates and day counts: each day count has a valid date, and that date counts as many days. Years
begin in March, and four hundred of them make an era. -/
namespace Switchboard.Calendar

/-- The days of an era before one of its years. -/
def daysBefore (y : Nat) : Nat := 365 * y + y / 4 - y / 100 + y / 400

/-- The days of an era up to some day without its leap days. -/
def plainDays (n : Nat) : Nat := n - n / 1460 + n / 36524 - n / 146096

/-- The year of a day of an era. -/
def yearOfEra (n : Nat) : Nat := plainDays n / 365

theorem monotone_plainDays : Monotone plainDays := by
  refine monotone_nat_of_le_succ fun n => ?_
  unfold plainDays
  omega

/-- A year begins with its first plain day and ends before that of the next one. -/
theorem plainDays_daysBefore : ∀ y < 400, 365 * y ≤ plainDays (daysBefore y) ∧
    plainDays (daysBefore (y + 1) - 1) < 365 * (y + 1) := by
  decide +kernel

theorem yearOfEra_lt {n : Nat} (h : n < 146097) : yearOfEra n < 400 := by
  have hlast : plainDays n ≤ plainDays 146096 := monotone_plainDays (by omega)
  have hplain : plainDays 146096 = 145999 := by decide
  unfold yearOfEra
  omega

/-- A day is in its year. -/
theorem mem_yearOfEra {n : Nat} (h : n < 146097) :
    daysBefore (yearOfEra n) ≤ n ∧ n < daysBefore (yearOfEra n + 1) := by
  have hyear := yearOfEra_lt h
  have hplain : 365 * yearOfEra n ≤ plainDays n ∧ plainDays n < 365 * (yearOfEra n + 1) := by
    unfold yearOfEra
    omega
  constructor
  · by_contra! hlt
    cases hy : yearOfEra n with
    | zero => simp [hy, daysBefore] at hlt
    | succ y =>
      rw [hy] at hlt hplain
      have hend := (plainDays_daysBefore y (by omega)).2
      have hle : plainDays n ≤ plainDays (daysBefore (y + 1) - 1) := monotone_plainDays (by omega)
      omega
  · by_contra! hle
    have hnext : yearOfEra n + 1 < 400 := by
      by_contra! hlast
      have hera : yearOfEra n + 1 = 400 := by omega
      rw [hera] at hle
      have htotal : daysBefore 400 = 146097 := by decide
      omega
    have hbegin := (plainDays_daysBefore _ hnext).1
    have hmono : plainDays (daysBefore (yearOfEra n + 1)) ≤ plainDays n := monotone_plainDays hle
    omega

/-- The days of a year before one of its months. -/
def daysBeforeMonth (m : Nat) : Nat := (153 * m + 2) / 5

/-- The month of a day of a year. -/
def monthOfYear (d : Nat) : Nat := (5 * d + 2) / 153

theorem monthOfYear_lt {d : Nat} (h : d < 366) : monthOfYear d < 12 := by
  unfold monthOfYear
  omega

theorem mem_monthOfYear (d : Nat) :
    daysBeforeMonth (monthOfYear d) ≤ d ∧ d < daysBeforeMonth (monthOfYear d + 1) := by
  unfold daysBeforeMonth monthOfYear
  omega

/-- The date of a day of a year of an era. January and February are those of the year after. -/
def dateOf (era : Int) (y d : Nat) : Date :=
  if monthOfYear d < 10 then
    ⟨y + era * 400, monthOfYear d + 3, d - daysBeforeMonth (monthOfYear d) + 1⟩
  else ⟨y + era * 400 + 1, monthOfYear d - 9, d - daysBeforeMonth (monthOfYear d) + 1⟩

/-- Each day is one of a year of an era. -/
theorem exists_dateOf (n : Int) : ∃ (era : Int) (y d : Nat), y < 400 ∧
    daysBefore y + d < daysBefore (y + 1) ∧ n = era * 146097 + (daysBefore y + d) - 719468 ∧
    Date.ofDays n = dateOf era y d := by
  have hsum := Int.fdiv_mul_add_fmod (n + 719468) 146097
  have hrest : 0 ≤ Int.fmod (n + 719468) 146097 ∧ Int.fmod (n + 719468) 146097 < 146097 := by
    rw [Int.fmod_eq_emod_of_nonneg _ (by decide)]
    omega
  have hnat : ((Int.fmod (n + 719468) 146097).toNat : Int) = Int.fmod (n + 719468) 146097 :=
    Int.toNat_of_nonneg hrest.1
  generalize hk : (Int.fmod (n + 719468) 146097).toNat = k at hnat
  have hlt : k < 146097 := by omega
  have hday := mem_yearOfEra hlt
  have hyear := yearOfEra_lt hlt
  have hdate : Date.ofDays n = dateOf (Int.fdiv (n + 719468) 146097) (yearOfEra k)
      (k - (365 * yearOfEra k + yearOfEra k / 4 - yearOfEra k / 100)) := by
    rw [← hk]
    rfl
  have hbefore : 365 * yearOfEra k + yearOfEra k / 4 - yearOfEra k / 100 =
      daysBefore (yearOfEra k) := by
    unfold daysBefore
    omega
  rw [hbefore] at hdate
  exact ⟨Int.fdiv (n + 719468) 146097, yearOfEra k, k - daysBefore (yearOfEra k), hyear, by omega,
    by omega, hdate⟩

section
variable {era : Int} {y d : Nat}

theorem day_lt (h : daysBefore y + d < daysBefore (y + 1)) : d < 366 := by
  unfold daysBefore at h
  omega

/-- The last day of a long year is a leap day. -/
theorem isLeap_of_long (h : daysBefore y + 365 < daysBefore (y + 1)) (era : Int) :
    isLeap (y + era * 400 + 1) = true := by
  unfold daysBefore at h
  simp only [isLeap, Bool.and_eq_true, Bool.or_eq_true, beq_iff_eq, bne_iff_ne]
  omega

theorem toDays_dateOf (hy : y < 400) (hd : d < 366) :
    (dateOf era y d).toDays = era * 146097 + (daysBefore y + d) - 719468 := by
  have hdiv : Int.fdiv (y + era * 400) 400 = era := by
    rw [Int.fdiv_eq_ediv_of_nonneg _ (by decide)]
    omega
  have hmod : Int.fmod (y + era * 400) 400 = y := by
    rw [Int.fmod_eq_emod_of_nonneg _ (by decide)]
    omega
  have hbefore : (daysBefore y : Int) = y * 365 + y / 4 - y / 100 := by
    unfold daysBefore
    omega
  have hlast := monthOfYear_lt hd
  have hmonth := (mem_monthOfYear d).1
  unfold dateOf Date.toDays
  by_cases hm : monthOfYear d < 10
  · have hnumber : ¬ monthOfYear d + 3 ≤ 2 := by omega
    simp only [if_pos hm, if_neg hnumber, hdiv, hmod, Nat.add_sub_cancel]
    unfold daysBeforeMonth at hmonth ⊢
    omega
  · have hnumber : monthOfYear d - 9 ≤ 2 := by omega
    simp only [if_neg hm, if_pos hnumber, Int.add_sub_cancel, hdiv, hmod]
    unfold daysBeforeMonth at hmonth ⊢
    omega

/-- All months but February have their length in every year. -/
theorem daysInMonth_eq {m : Nat} (hm : m < 11) (year : Int) :
    daysInMonth year (if m < 10 then m + 3 else m - 9) =
      daysBeforeMonth (m + 1) - daysBeforeMonth m := by
  interval_cases m <;> simp [daysInMonth, daysBeforeMonth]

theorem month_dateOf (hd : d < 366) :
    1 ≤ (dateOf era y d).month ∧ (dateOf era y d).month ≤ 12 := by
  have hlast := monthOfYear_lt hd
  unfold dateOf
  split
  · exact ⟨Nat.le_add_left 1 _, by simp only; omega⟩
  · exact ⟨by simp only; omega, by simp only; omega⟩

/-- A day is in its month. -/
theorem day_dateOf (h : daysBefore y + d < daysBefore (y + 1)) :
    (dateOf era y d).day ≤ daysInMonth (dateOf era y d).year (dateOf era y d).month := by
  have hmonth := mem_monthOfYear d
  unfold dateOf
  rcases Nat.lt_or_ge (monthOfYear d) 11 with hm | hm
  · have hlength := daysInMonth_eq hm
    by_cases hmarch : monthOfYear d < 10
    · simp only [if_pos hmarch] at hlength ⊢
      rw [hlength]
      omega
    · simp only [if_neg hmarch] at hlength ⊢
      rw [hlength]
      omega
  · have hfebruary : monthOfYear d = 11 := by
      have := monthOfYear_lt (day_lt h)
      omega
    have hbefore : daysBeforeMonth 11 = 337 := rfl
    have htwo : daysInMonth (y + era * 400 + 1) 2 =
      if isLeap (y + era * 400 + 1) then 29 else 28 := rfl
    simp only [hfebruary, hbefore] at hmonth ⊢
    rw [if_neg (by decide)]
    show d - 337 + 1 ≤ daysInMonth (y + era * 400 + 1) 2
    rw [htwo]
    have hd := day_lt h
    rcases Nat.lt_or_ge d 365 with hshort | hlong
    · split <;> omega
    · obtain rfl : d = 365 := by omega
      rw [if_pos (isLeap_of_long h era)]

end

/-- The date of a day counts as that day. -/
theorem toDays_ofDays (n : Int) : (Date.ofDays n).toDays = n := by
  obtain ⟨era, y, d, hy, hd, hn, hdate⟩ := exists_dateOf n
  rw [hdate, toDays_dateOf hy (day_lt hd), hn]

/-- Each day has a valid date, in the years that dates are kept for. -/
theorem isValid_ofDays {n : Int} (h : yearInRange (Date.ofDays n).year = true) :
    (Date.ofDays n).isValid = true := by
  obtain ⟨era, y, d, -, hd, -, hdate⟩ := exists_dateOf n
  have hfirst : 1 ≤ (dateOf era y d).day := by
    unfold dateOf
    split <;> exact Nat.le_add_left 1 _
  have hmonth : 1 ≤ (dateOf era y d).month ∧ (dateOf era y d).month ≤ 12 :=
    month_dateOf (day_lt hd)
  rw [hdate] at h ⊢
  simp only [Date.isValid, h, Bool.and_eq_true, decide_eq_true_eq]
  exact ⟨⟨⟨⟨trivial, hmonth.1⟩, hmonth.2⟩, hfirst⟩, day_dateOf hd⟩

end Switchboard.Calendar
