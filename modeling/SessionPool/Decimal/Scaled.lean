/-! From decimal digits to a double. Digits are collected into a significand of 64 bits for as long as
    they fit: a digit of the integer part that no longer fits only adds one to the exponent, one of the
    fraction is dropped. The significand is then multiplied or divided by one power of ten, which
    rounds once more, so the result can miss the nearest double by its last bit. -/

namespace SessionPool.Decimal

/-- The first number that 64 bits do not hold. -/
def wordBound : Nat := 0x10000000000000000

/-- Takes digits while the number they form stays below 2^64; also returns the digits left over. -/
def fit (significand : Nat) : List Char → Nat × List Char
  | [] => (significand, [])
  | c :: ds =>
    let next := significand * 10 + (c.toNat - '0'.toNat)
    if next < wordBound then fit next ds else (significand, c :: ds)

/-- A decimal number `significand * 10 ^ exponent`. -/
structure Scaled where
  significand : Nat
  exponent : Int

/-- The number with the digits `whole` before the point and `fraction` after it. -/
def Scaled.ofDigits (whole fraction : List Char) : Scaled :=
  let (n, surplus) := fit 0 whole
  let (m, dropped) := fit n fraction
  ⟨m, (surplus.length : Int) - ((fraction.length - dropped.length : Nat) : Int)⟩

/-- The double nearest to a power of ten; the exponent is at most 308. -/
def powerOfTen (k : Nat) : Float := Float.ofScientific 1 false k

/-- Divides by `10 ^ k`, in steps that keep each divisor finite. -/
def shrink (f : Float) (k : Nat) : Float :=
  if k ≤ 308 then f / powerOfTen k
  else if f == 0 then f
  else shrink (f / powerOfTen 308) (k - 308)
termination_by k

/-- The bits of the double `negative`, `significand * 10 ^ exponent`, or `none` if it is too large. -/
def Scaled.toDouble? (negative : Bool) (s : Scaled) : Option UInt64 :=
  let f := s.significand.toUInt64.toFloat
  let magnitude :=
    if s.exponent < 0 then some (shrink f s.exponent.natAbs)
    else if s.exponent ≤ 308 then
      let g := f * powerOfTen s.exponent.natAbs
      if g.isInf then none else some g
    else if f == 0 then some f
    else none
  magnitude.map fun g => (if negative then -g else g).toBits

end SessionPool.Decimal
