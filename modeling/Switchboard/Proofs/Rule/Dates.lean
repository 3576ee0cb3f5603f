import Switchboard.Proofs.Calendar.Instants
import Switchboard.Rule.Format

/-! Dates as formats write them. Both formats read what they have written as the same day, and the
timestamp as the same millisecond. -/
namespace Switchboard.Rule
open Calendar (Date Instant)

section
variable {v w : Json} {t : Instant}

theorem applyFormat_isoDate (h : instant? v = some t) :
    applyFormat "iso_date" v = .ok (.ofChars t.text) := by
  simp [applyFormat, h]

theorem applyFormat_isoDateOnly (h : instant? v = some t) :
    applyFormat "iso_date_only" v = .ok (.ofChars (Date.ofDays t.days).text) := by
  simp [applyFormat, h]

/-- What the value of a string or of a number names has a time of day. -/
theorem isTimed_of_instant? (h : instant? v = some t) : t.IsTimed := by
  unfold instant? at h
  split at h
  · obtain ⟨ms, -, h⟩ := Option.bind_eq_some_iff.mp h
    exact Calendar.isTimed_ofMillis? h
  · exact Calendar.isTimed_of_ofChars? h
  · cases h

/-- A text without white space around it is read as it is. -/
theorem instant?_ofChars {s : List Char} (h : Text.Bounded Text.isWhite s) :
    instant? (.ofChars s) = Instant.ofChars? s := by
  rw [Json.ofChars, instant?, String.toList_ofList, Text.trim_eq_self h]

theorem instant?_text (ht : t.IsTimed) (hy : t.HasPlainYear) :
    instant? (.ofChars t.text) = some t.cut := by
  rw [instant?_ofChars t.bounded_text, Instant.ofChars?_text ht hy]

theorem instant?_date (hy : t.HasPlainYear) :
    instant? (.ofChars (Date.ofDays t.days).text) = some ⟨t.days, 0, 0⟩ := by
  rw [instant?_ofChars (Date.ofDays t.days).bounded_text, Instant.ofChars?_date hy]

/-- The text of a date in a year of four digits is in its format already, and has the date of the
value that it was made of; that date is in its format too. -/
theorem applyFormat_isoDate_again (h : applyFormat "iso_date" v = .ok w)
    (ht : instant? v = some t) (hy : t.HasPlainYear) :
    applyFormat "iso_date" w = .ok w ∧
      applyFormat "iso_date_only" w = applyFormat "iso_date_only" v ∧
      ∃ d, applyFormat "iso_date_only" v = .ok d ∧ applyFormat "iso_date_only" d = .ok d := by
  obtain rfl := Except.ok.inj ((applyFormat_isoDate ht).symm.trans h)
  have hcut := instant?_text (isTimed_of_instant? ht) hy
  refine ⟨?_, ?_, _, applyFormat_isoDateOnly ht, ?_⟩
  · rw [applyFormat_isoDate hcut, Instant.text_cut]
  · rw [applyFormat_isoDateOnly hcut, applyFormat_isoDateOnly ht]
    rfl
  · exact applyFormat_isoDateOnly (t := ⟨t.days, 0, 0⟩) (instant?_date hy)

/-- A leap second shortly after a midnight that universal time has yet to reach. -/
def Sample.localLeap : Json := .str " 2024-01-01T00:29:60.98765+01:30\n"

theorem applyFormat_isoDate_again_localLeap :
    applyFormat "iso_date" Sample.localLeap = .ok (.str "2023-12-31T22:59:60.987Z") ∧
      instant? Sample.localLeap = some ⟨19722, 82799, 1987650000⟩ ∧
      (Instant.mk 19722 82799 1987650000).HasPlainYear ∧
      applyFormat "iso_date" (.str "2023-12-31T22:59:60.987Z") =
        .ok (.str "2023-12-31T22:59:60.987Z") ∧
      applyFormat "iso_date_only" (.str "2023-12-31T22:59:60.987Z") =
        applyFormat "iso_date_only" Sample.localLeap := by
  have ht : instant? Sample.localLeap = some ⟨19722, 82799, 1987650000⟩ := by decide +kernel
  have htext : (Instant.mk 19722 82799 1987650000).text = "2023-12-31T22:59:60.987Z".toList := by
    decide +kernel
  have h : applyFormat "iso_date" Sample.localLeap = .ok (.str "2023-12-31T22:59:60.987Z") := by
    rw [applyFormat_isoDate ht, htext, Json.ofChars, String.ofList_toList]
  have hy : (Instant.mk 19722 82799 1987650000).HasPlainYear := by
    unfold Instant.HasPlainYear
    decide
  obtain ⟨hagain, hday, -⟩ := applyFormat_isoDate_again h ht hy
  exact ⟨h, ht, hy, hagain, hday⟩

end

end Switchboard.Rule
