import Switchboard.Decimal.Binary

/-! Decimal numerals as text: a sign, digits with at most one point, an exponent, or the name of an
infinity or of NaN. The value is rounded once, to nearest. -/
namespace Switchboard.Decimal

/-- The value of a digit. -/
def digitValue (c : Char) : Nat := c.toNat - 48

/-- The number that digits write, after `n` already read. -/
def readDigits (n : Nat) : List Char → Nat
  | [] => n
  | c :: s => readDigits (10 * n + digitValue c) s

/-- The number that a nonempty text of ASCII digits writes. -/
def natural? (s : List Char) : Option Nat :=
  if s ≠ [] ∧ s.all Char.isDigit then some (readDigits 0 s) else none

/-- The number nearest to `digits · 10^exp`. The bounds keep the powers of ten small where the
answer is an infinity or zero anyway. -/
def nearest (digits : Nat) (exp : Int) : Float :=
  if digits = 0 then 0
  else
    let size := (digits.log2 : Int) * 30103 / 100000 + exp
    if size > 400 then 1 / 0
    else if size < -400 then 0
    else .ofScientific digits (exp < 0) exp.natAbs

/-- An exponent mark with a signed number after it; no mark is exponent zero. -/
def exponent? : List Char → Option Int
  | [] => some 0
  | e :: s =>
    if e = 'e' ∨ e = 'E' then
      match s with
      | '-' :: ds => (natural? ds).map fun n => -n
      | '+' :: ds => (natural? ds).map fun n => n
      | ds => (natural? ds).map fun n => n
    else none

/-- The magnitude that a numeral without a sign writes. -/
def unsigned? (s : List Char) : Option Float :=
  let word := s.map Char.toLower
  if word = "inf".toList ∨ word = "infinity".toList then some (1 / 0)
  else if word = "nan".toList then some (0 / 0)
  else
    let whole := s.takeWhile Char.isDigit
    let rest := s.dropWhile Char.isDigit
    let (part, rest) :=
      match rest with
      | '.' :: r => (r.takeWhile Char.isDigit, r.dropWhile Char.isDigit)
      | r => ([], r)
    if whole = [] ∧ part = [] then none
    else (exponent? rest).map fun e => nearest (readDigits 0 (whole ++ part)) (e - part.length)

/-- The number that a numeral writes. -/
def float? : List Char → Option Float
  | '-' :: s => (unsigned? s).map fun x => -x
  | '+' :: s => unsigned? s
  | s => unsigned? s

example : (float? "-.5e1".toList).map Float.toBits = some (-5.0 : Float).toBits := by decide +kernel
example : (float? "1e400".toList).map Float.toBits = some (1 / 0 : Float).toBits := by
  decide +kernel
example : (float? ".".toList).isNone ∧ (float? " 1".toList).isNone := by decide +kernel

end Switchboard.Decimal
