/-! Exact views of binary64 numbers. A finite number is a sign and a magnitude `m · 2^q`, on which
truncation, remainder and the test for a fraction are integer arithmetic. -/
namespace Switchboard.Decimal

/-- The magnitude `m · 2^q`. -/
structure Binary where
  m : Nat
  q : Int

namespace Binary

/-- The magnitude that the bits of a finite number hold; the sign is left out. -/
def ofBits (b : UInt64) : Binary :=
  let e := ((b >>> 52) &&& 0x7FF).toNat
  let f := (b &&& 0xFFFFFFFFFFFFF).toNat
  if e = 0 then ⟨f, -1074⟩ else ⟨0x10000000000000 + f, (e : Int) - 1075⟩

/-- The gap to the number below is half the gap to the number above. -/
def narrowBelow (x : Binary) : Bool := x.m == 0x10000000000000 && x.q > -1074

/-- The whole part. -/
def floor (x : Binary) : Nat :=
  if 0 ≤ x.q then x.m <<< x.q.toNat else x.m >>> (-x.q).toNat

def isWhole (x : Binary) : Bool := 0 ≤ x.q || x.m % 1 <<< (-x.q).toNat == 0

/-- The remainder of dividing `x` by a nonzero `y`, on the finer of the two grids. -/
def mod (x y : Binary) : Binary :=
  let q := min x.q y.q
  ⟨x.m <<< (x.q - q).toNat % y.m <<< (y.q - q).toNat, q⟩

/-- The bits of a magnitude that a number can hold exactly. -/
def toBits (x : Binary) : UInt64 :=
  if x.m = 0 then 0
  else
    let up := min (52 - (x.m.log2 : Int)) (x.q + 1074)
    let m := if 0 ≤ up then x.m <<< up.toNat else x.m >>> (-up).toNat
    let q := x.q - up
    if m < 0x10000000000000 then UInt64.ofNat m
    else UInt64.ofNat ((q + 1075).toNat <<< 52 + (m - 0x10000000000000))

end Binary

/-- Neither an infinity nor NaN. -/
def isFinite (x : Float) : Bool := (x.toBits >>> 52) &&& 0x7FF != 0x7FF

def isNegative (x : Float) : Bool := x.toBits >>> 63 == 1

/-- The magnitude of a finite number. -/
def magnitude (x : Float) : Binary := .ofBits x.toBits

/-- A finite number with no fraction. -/
def isWhole (x : Float) : Bool := isFinite x && (magnitude x).isWhole

/-- A finite number cut towards zero. -/
def truncate (x : Float) : Int :=
  let n : Int := (magnitude x).floor
  if isNegative x then -n else n

/-- The signed 64-bit number nearest to `x` cut towards zero; NaN gives zero. -/
def toInt64 (x : Float) : Int :=
  if isFinite x then max (-0x8000000000000000) (min (truncate x) 0x7FFFFFFFFFFFFFFF)
  else if x < 0 then -0x8000000000000000
  else if 0 < x then 0x7FFFFFFFFFFFFFFF
  else 0

/-- The remainder of `x / y` cut towards zero, with the sign of `x`. -/
def remainder (x y : Float) : Float :=
  if !isFinite x || y == 0 || y != y then 0 / 0
  else if !isFinite y then x
  else
    let b := ((magnitude x).mod (magnitude y)).toBits
    .ofBits (if isNegative x then b ||| 0x8000000000000000 else b)

example : truncate (-2.75) = -2 ∧ isWhole 2251799813685248.5 = false := by decide +kernel
example : (remainder (-5.5) 2).toBits = (-1.5 : Float).toBits := by decide +kernel

end Switchboard.Decimal
