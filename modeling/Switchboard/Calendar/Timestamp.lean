import Switchboard.Calendar.Basic
import Switchboard.Json.Basic

/-! Timestamps in JSON. -/
namespace Switchboard

/-- The text of a time in milliseconds; one that no calendar date has is null. -/
def Json.ofMillis (ms : Int) : Json :=
  ((Calendar.Instant.ofMillis? ms).map fun t => Json.ofChars t.shortText).getD .null

end Switchboard
