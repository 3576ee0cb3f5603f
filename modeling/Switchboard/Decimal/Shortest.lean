import Switchboard.Decimal.Binary

/-! The text of a binary64 number by the fewest digits that read back to it. Digits are found by
exact integer arithmetic; a `Layout` says how they are written. -/
namespace Switchboard.Decimal

/-- Which of two equally near decimals is taken. -/
inductive Tie where
  | toEven
  | away

/-- How digits become text. -/
structure Layout where
  /-- Exponents of the leading digit from here on are written with a plain point … -/
  plainFrom : Int
  /-- … up to here, which is excluded. -/
  plainBelow : Int
  /-- A positive exponent carries its sign. -/
  plus : Bool
  tie : Tie

/-- The decimal `digits · 10^exp`. -/
structure Dec where
  digits : Nat
  exp : Int

/-- Compare `a · 10^i` with `n · 2^j`. -/
def compareScaled (a : Nat) (i : Int) (n : Nat) (j : Int) : Ordering :=
  compare ((a * Nat.pow 10 i.toNat) <<< (-j).toNat) ((n * Nat.pow 10 (-i).toNat) <<< j.toNat)

namespace Binary

/-- The decimal lies among the reals that round to `x`; the two ends belong to it when `m` is
even. -/
def readsBack (x : Binary) (d : Dec) : Bool :=
  let gap := if x.narrowBelow then 1 else 2
  let lower := compareScaled d.digits d.exp (4 * x.m - gap) (x.q - 2)
  let upper := compareScaled d.digits d.exp (4 * x.m + 2) (x.q - 2)
  let even := x.m % 2 == 0
  (lower == .gt || even && lower == .eq) && (upper == .lt || even && upper == .eq)

/-- The least `k` with `x < 10^k`, for nonzero `x`. -/
def scale (x : Binary) : Int :=
  let guess := (x.m.log2 + x.q) * 30103 / 100000
  let below (k : Int) : Bool := compareScaled 1 k x.m x.q == .gt
  if below guess then guess
  else if below (guess + 1) then guess + 1
  else if below (guess + 2) then guess + 2
  else guess + 3

/-- The multiple of `10^e` that reads back to `x`, if there is one: the nearer of the two
neighbours of `x` on that grid when both do. -/
def onGrid (x : Binary) (tie : Tie) (e : Int) : Option Dec :=
  let num := (x.m * Nat.pow 10 (-e).toNat) <<< x.q.toNat
  let den := Nat.pow 10 e.toNat <<< (-x.q).toNat
  let lo : Dec := ⟨num / den, e⟩
  let hi : Dec := ⟨num / den + 1, e⟩
  match x.readsBack lo, x.readsBack hi with
  | true, true =>
    match compare (2 * num) ((lo.digits + hi.digits) * den), tie with
    | .lt, _ => some lo
    | .gt, _ => some hi
    | .eq, .away => some hi
    | .eq, .toEven => some (if lo.digits % 2 = 0 then lo else hi)
  | true, false => some lo
  | false, true => some hi
  | false, false => none

/-- The shortest decimal of a nonzero magnitude; seventeen digits always suffice. -/
def shortest (x : Binary) (tie : Tie) : Dec :=
  let k := x.scale
  ((List.range 17).findSome? fun (n : Nat) => x.onGrid tie (k - (n + 1))).getD
    ⟨(x.m * Nat.pow 5 (-x.q).toNat) <<< x.q.toNat, min x.q 0⟩

end Binary

/-- Trailing zeros of the digits go into the exponent. -/
def Dec.strip (d : Dec) : Dec :=
  if h : 0 < d.digits ∧ d.digits % 10 = 0 then Dec.strip ⟨d.digits / 10, d.exp + 1⟩ else d
termination_by d.digits
decreasing_by exact Nat.div_lt_self h.1 (by decide)

/-- The decimal digits of a number, leading digit first. -/
def digitsOf (n : Nat) : List Char := Nat.toDigits 10 n

/-- The text of a signed exponent. -/
def Layout.exponent (l : Layout) (e : Int) : List Char :=
  (if e < 0 then ['-'] else if l.plus then ['+'] else []) ++ digitsOf e.natAbs

/-- Digits written with a plain point inside their range, else with an exponent. -/
def Layout.place (l : Layout) (d : Dec) : List Char :=
  let ds := digitsOf d.digits
  let lead := d.exp + ds.length - 1
  if l.plainFrom ≤ lead ∧ lead < l.plainBelow then
    if 0 ≤ d.exp then ds ++ List.replicate d.exp.toNat '0' ++ ['.', '0']
    else if 0 ≤ lead then
      ds.take (lead.toNat + 1) ++ '.' :: ds.drop (lead.toNat + 1)
    else ['0', '.'] ++ List.replicate (-lead - 1).toNat '0' ++ ds
  else
    match ds with
    | [] => []
    | c :: [] => c :: 'e' :: l.exponent lead
    | c :: rest => c :: '.' :: rest ++ 'e' :: l.exponent lead

/-- The text of a number. -/
def Layout.render (l : Layout) (x : Float) : List Char :=
  let sign := if isNegative x then ['-'] else []
  if x != x then "NaN".toList
  else if !isFinite x then sign ++ "inf".toList
  else if x == 0 then sign ++ "0.0".toList
  else sign ++ l.place ((magnitude x).shortest l.tie).strip

example : (Layout.mk (-5) 16 true .toEven).render 0.1 = "0.1".toList := by decide +kernel
example : (Layout.mk (-5) 16 true .toEven).render 12345678901234567.0
    = "1.2345678901234568e+16".toList := by decide +kernel

end Switchboard.Decimal
