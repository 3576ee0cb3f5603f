/-! Dates of the proleptic Gregorian calendar and instants in universal time. -/
namespace Switchboard.Calendar

structure Date where
  year : Int
  month : Nat
  day : Nat
  deriving DecidableEq

def isLeap (year : Int) : Bool := year % 4 == 0 && (year % 100 != 0 || year % 400 == 0)

def daysInMonth (year : Int) (month : Nat) : Nat :=
  if month = 2 then if isLeap year then 29 else 28
  else if month = 4 ∨ month = 6 ∨ month = 9 ∨ month = 11 then 30
  else 31

/-- The years that dates are kept for. -/
def yearInRange (year : Int) : Bool := -262143 ≤ year && year ≤ 262142

namespace Date

def isValid (d : Date) : Bool :=
  yearInRange d.year && 1 ≤ d.month && d.month ≤ 12 && 1 ≤ d.day &&
    d.day ≤ daysInMonth d.year d.month

/-- Days since the first of January 1970. Years are counted from March, so that the leap day comes
last. -/
def toDays (d : Date) : Int :=
  let y := if d.month ≤ 2 then d.year - 1 else d.year
  let era := Int.fdiv y 400
  let yearOfEra := Int.fmod y 400
  let month := if d.month ≤ 2 then d.month + 9 else d.month - 3
  let dayOfYear := (153 * month + 2) / 5 + d.day - 1
  era * 146097 + (yearOfEra * 365 + yearOfEra / 4 - yearOfEra / 100 + dayOfYear) - 719468

/-- The date that many days after the first of January 1970. -/
def ofDays (n : Int) : Date :=
  let z := n + 719468
  let era := Int.fdiv z 146097
  let dayOfEra := (Int.fmod z 146097).toNat
  let yearOfEra := (dayOfEra - dayOfEra / 1460 + dayOfEra / 36524 - dayOfEra / 146096) / 365
  let dayOfYear := dayOfEra - (365 * yearOfEra + yearOfEra / 4 - yearOfEra / 100)
  let month := (5 * dayOfYear + 2) / 153
  let day := dayOfYear - (153 * month + 2) / 5 + 1
  let y := yearOfEra + era * 400
  if month < 10 then ⟨y, month + 3, day⟩ else ⟨y + 1, month - 9, day⟩

end Date

/-- A moment in universal time: days since 1970, the second of the day, and the billionths of that
second. Those of a leap second go on past a whole second. -/
structure Instant where
  days : Int
  second : Nat
  nano : Nat
  deriving DecidableEq

namespace Instant

/-- The moment that many milliseconds after the start of 1970, in the years that dates are kept
for. -/
def ofMillis? (ms : Int) : Option Instant :=
  let days := Int.fdiv ms 86400000
  let rest := (Int.fmod ms 86400000).toNat
  if yearInRange (Date.ofDays days).year then some ⟨days, rest / 1000, rest % 1000 * 1000000⟩
  else none

end Instant

/-- A number with zeros in front, up to `width` digits. -/
def padded (width n : Nat) : List Char :=
  let ds := Nat.toDigits 10 n
  List.replicate (width - ds.length) '0' ++ ds

/-- Four digits, with a sign in front of years that have more or come before year zero. -/
def yearText (year : Int) : List Char :=
  if year < 0 then '-' :: padded 4 year.natAbs
  else if year ≤ 9999 then padded 4 year.toNat
  else '+' :: padded 4 year.toNat

def Date.text (d : Date) : List Char :=
  yearText d.year ++ '-' :: padded 2 d.month ++ '-' :: padded 2 d.day

/-- A time of day to the second; a leap second is the sixtieth of its minute. -/
def Instant.timeText (t : Instant) : List Char :=
  padded 2 (t.second / 3600) ++ ':' :: padded 2 (t.second / 60 % 60) ++
    ':' :: padded 2 (t.second % 60 + t.nano / 1000000000)

/-- The milliseconds of the second, cut off. -/
def Instant.millis (t : Instant) : Nat := t.nano % 1000000000 / 1000000

/-- Date and time with three decimals, in universal time. -/
def Instant.text (t : Instant) : List Char :=
  (Date.ofDays t.days).text ++ 'T' :: t.timeText ++ '.' :: padded 3 t.millis ++ ['Z']

/-- As `text`, with no decimals if they are zero. -/
def Instant.shortText (t : Instant) : List Char :=
  (Date.ofDays t.days).text ++ 'T' :: t.timeText ++
    (if t.millis = 0 then [] else '.' :: padded 3 t.millis) ++ ['Z']

example : (Date.ofDays 19782).text = "2024-02-29".toList := by decide
example : (Date.mk 2024 2 29).toDays = 19782 := by decide

end Switchboard.Calendar
