import Switchboard.Calendar.Basic
import Switchboard.Decimal.Numeral
import Switchboard.Text.Class

/-! Reading dates and times. A text is tried as a full timestamp with an offset, as a date and time
with a blank or a `T` between them, as a date, and as milliseconds since 1970. -/
namespace Switchboard.Calendar

/-- From `least` up to `most` digits at the front of a text. -/
def takeNumber (least most : Nat) (s : List Char) : Option (Nat × List Char) :=
  let ds := (s.take most).takeWhile Char.isDigit
  if ds.length < least then none else some (Decimal.readDigits 0 ds, s.drop ds.length)

/-- All the digits at the front of a text, at least one. -/
def takeDigits (s : List Char) : Option (Nat × List Char) := takeNumber 1 s.length s

def takeChar (c : Char) : List Char → Option (List Char)
  | d :: s => if c = d then some s else none
  | [] => none

/-- A valid date of the given parts. -/
def date? (year : Int) (month day : Nat) : Option Date :=
  if (Date.mk year month day).isValid then some ⟨year, month, day⟩ else none

/-- A valid time of day. Second sixty is a leap second, of any minute. -/
def time? (hour minute second nano : Nat) : Option (Nat × Nat) :=
  if hour < 24 ∧ minute < 60 ∧ second ≤ 60 then
    if second = 60 then some (hour * 3600 + minute * 60 + 59, 1000000000 + nano)
    else some (hour * 3600 + minute * 60 + second, nano)
  else none

/-- The decimals of a second, in billionths; those past the ninth are dropped. -/
def takeNano : List Char → Option (Nat × List Char)
  | '.' :: s =>
    let ds := s.takeWhile Char.isDigit
    if ds = [] then none
    else
      let kept := ds.take 9
      some (Decimal.readDigits 0 kept * Nat.pow 10 (9 - kept.length), s.drop ds.length)
  | s => some (0, s)

/-- The seconds that local time is ahead of universal time. The minus sign may also be the
mathematical one. -/
def takeOffset : List Char → Option (Int × List Char)
  | c :: s =>
    if c = 'Z' ∨ c = 'z' then some (0, s)
    else if c = '+' ∨ c = '-' ∨ c = '\u2212' then do
      let (hours, s) ← takeNumber 2 2 s
      let s ← takeChar ':' s
      let (minutes, s) ← takeNumber 2 2 s
      if hours < 24 ∧ minutes < 60 then
        let seconds : Int := hours * 3600 + minutes * 60
        some (if c = '+' then seconds else -seconds, s)
      else none
    else none
  | [] => none

/-- A date and a time of day in universal time, `offset` seconds before those given. -/
def instantAt (d : Date) (second nano : Nat) (offset : Int) : Instant :=
  let total : Int := second - offset
  ⟨d.toDays + Int.fdiv total 86400, (Int.fmod total 86400).toNat, nano⟩

/-- A timestamp whose parts have their full width, with an offset at the end. -/
def timestamp? (s : List Char) : Option Instant := do
  let (year, s) ← takeNumber 4 4 s
  let s ← takeChar '-' s
  let (month, s) ← takeNumber 2 2 s
  let s ← takeChar '-' s
  let (day, s) ← takeNumber 2 2 s
  match s with
  | [] => none
  | c :: s =>
    if c = 'T' ∨ c = 't' ∨ c = ' ' then do
      let (hour, s) ← takeNumber 2 2 s
      let s ← takeChar ':' s
      let (minute, s) ← takeNumber 2 2 s
      let s ← takeChar ':' s
      let (second, s) ← takeNumber 2 2 s
      let (nano, s) ← takeNano s
      let (offset, s) ← takeOffset s
      let d ← date? year month day
      let (second, nano) ← time? hour minute second nano
      if s = [] then some (instantAt d second nano offset) else none
    else none

/-- A part of a date or time, white space before it ignored. -/
def takePart (s : List Char) : Option (Nat × List Char) := takeNumber 1 2 (Text.trimLeft s)

/-- A year of up to four digits, or a sign and any number of digits. -/
def takeYear (s : List Char) : Option (Int × List Char) :=
  match Text.trimLeft s with
  | '-' :: s => (takeDigits s).map fun (n, s) => (-n, s)
  | '+' :: s => (takeDigits s).map fun (n, s) => (n, s)
  | s => (takeNumber 1 4 s).map fun (n, s) => (n, s)

def takeDate (s : List Char) : Option (Date × List Char) := do
  let (year, s) ← takeYear s
  let s ← takeChar '-' s
  let (month, s) ← takePart s
  let s ← takeChar '-' s
  let (day, s) ← takePart s
  let d ← date? year month day
  some (d, s)

/-- A time of day that ends the text. -/
def clock? (s : List Char) : Option (Nat × Nat) := do
  let (hour, s) ← takePart s
  let s ← takeChar ':' s
  let (minute, s) ← takePart s
  let s ← takeChar ':' s
  let (second, s) ← takePart s
  if s = [] then time? hour minute second 0 else none

/-- A date, white space if any, and a time. -/
def spaced? (s : List Char) : Option Instant := do
  let (d, s) ← takeDate s
  let (second, nano) ← clock? (Text.trimLeft s)
  some (instantAt d second nano 0)

/-- A date, a `T` and a time. -/
def joined? (s : List Char) : Option Instant := do
  let (d, s) ← takeDate s
  let s ← takeChar 'T' s
  let (second, nano) ← clock? s
  some (instantAt d second nano 0)

/-- A date alone; the time is midnight. -/
def midnight? (s : List Char) : Option Instant := do
  let (d, s) ← takeDate s
  if s = [] then some (instantAt d 0 0 0) else none

/-- A signed 64-bit number. -/
def integer? : List Char → Option Int
  | '-' :: ds => ((Decimal.natural? ds).filter (· ≤ 0x8000000000000000)).map fun n => -n
  | '+' :: ds => ((Decimal.natural? ds).filter (· < 0x8000000000000000)).map fun n => n
  | ds => ((Decimal.natural? ds).filter (· < 0x8000000000000000)).map fun n => n

/-- The moment that a text names. -/
def Instant.ofChars? (s : List Char) : Option Instant :=
  timestamp? s <|> spaced? s <|> joined? s <|> midnight? s <|>
    (integer? s).bind Instant.ofMillis?

example : ((Instant.ofChars? "2024-02-29T23:59:60.5+01:00".toList).map Instant.text)
    = some "2024-02-29T22:59:60.500Z".toList := by decide +kernel
example : ((Instant.ofChars? "2024-3-1  7:05:09".toList).map Instant.text)
    = some "2024-03-01T07:05:09.000Z".toList := by decide +kernel

end Switchboard.Calendar
