import Switchboard.Calendar.Reader
import Switchboard.Json.Text
import Switchboard.Rule.Basic
import Switchboard.Text.Case

/-! Formats: keywords that coerce a value, and templates around its text. -/
namespace Switchboard.Rule

/-- The moment that a value names: milliseconds since 1970, or a text. -/
def instant? : Json → Option Calendar.Instant
  | .num n => n.toInt?.bind Calendar.Instant.ofMillis?
  | .str s => Calendar.Instant.ofChars? (Text.trim s.toList)
  | _ => none

/-- A number as it is, one or zero for a boolean, the finite number that a text writes. -/
def number? : Json → Option Json
  | .num n => some (.num n)
  | .bool b => some (.num (.int (if b then 1 else 0)))
  | .str s => ((Decimal.float? (Text.trim s.toList)).filter Decimal.isFinite).map .ofFloat
  | _ => none

/-- The words for true and false, in any case, else whether the value is truthy. -/
def booleanOf (v : Json) : Bool :=
  match v with
  | .str s =>
    let word := s.toList.map Char.toLower
    if word = "true".toList then true
    else if word = "false".toList then false
    else v.truthy
  | v => v.truthy

/-- The text between a template's braces. -/
def valueMark : List Char := '\x7b' :: "value".toList ++ ['\x7d']

/-- A template with every mark replaced by a text. -/
def fillTemplate (text : List Char) (s : List Char) : List Char :=
  match s with
  | [] => []
  | c :: s =>
    if valueMark.isPrefixOf (c :: s) then
      text ++ fillTemplate text (s.drop (valueMark.length - 1))
    else c :: fillTemplate text s
termination_by s.length

/-- The value in a format: one of eight keywords, or a template. -/
def applyFormat (format : String) (v : Json) : Except Error Json :=
  let text := v.plainText.toList
  if format = "uppercase" then .ok (.ofChars (Text.upper text))
  else if format = "lowercase" then .ok (.ofChars (Text.lower text))
  else if format = "trim" then .ok (.ofChars (Text.trim text))
  else if format = "iso_date" then
    match instant? v with
    | some t => .ok (.ofChars t.text)
    | none => .error (.invalidDate v.plainText)
  else if format = "iso_date_only" then
    match instant? v with
    | some t => .ok (.ofChars (Calendar.Date.ofDays t.days).text)
    | none => .error (.invalidDate v.plainText)
  else if format = "number" then
    match number? v with
    | some n => .ok n
    | none => .error (.invalidNumber v.plainText)
  else if format = "boolean" then .ok (.bool (booleanOf v))
  else if format = "string" then .ok (.ofChars text)
  else .ok (.ofChars (fillTemplate text format.toList))

end Switchboard.Rule
