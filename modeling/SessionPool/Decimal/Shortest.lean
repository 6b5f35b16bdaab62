/-! The fewest decimal digits that read back as a given double. A double stands for the interval of
    reals that round to it, ends included when its significand is even. Grids of 1, 2, … 17 digits
    are tried in turn; on each only the two neighbours of the double can be the nearest point inside
    the interval. The first grid with a hit wins, of two hits the nearer, and a tie goes to the even
    digit. All arithmetic is on natural numbers, so nothing is rounded on the way. -/

namespace SessionPool.Decimal

/-- The reals that round to a positive double, as multiples of `1 / den`. -/
structure Span where
  low : Nat
  mid : Nat
  high : Nat
  den : Nat
  closed : Bool

/-- The significand of a normal double is at least this, and less than twice as much. -/
def hiddenBit : Nat := 0x10000000000000

/-- The span of the double with these bits, whose sign is ignored. -/
def Span.ofBits (bits : UInt64) : Span :=
  let field := (bits >>> 52).toNat % 2048
  let fraction := bits.toNat % hiddenBit
  let m := if field = 0 then fraction else fraction + hiddenBit
  let q : Int := (max field 1 : Nat) - 1075
  let scale := Nat.pow 2 q.toNat
  -- below a power of two the neighbours lie twice as close
  let gap := if fraction = 0 ∧ 1 < field then 1 else 2
  { low := (4 * m - gap) * scale
    mid := 4 * m * scale
    high := (4 * m + 2) * scale
    den := 4 * Nat.pow 2 (-q).toNat
    closed := m % 2 = 0 }

/-- The multiple of `10 ^ k` nearest to the double among those inside its span. -/
def Span.nearest? (s : Span) (k : Int) : Option Nat :=
  let unit := Nat.pow 10 k.toNat * s.den
  let scale := Nat.pow 10 (-k).toNat
  let inside (j : Nat) : Bool :=
    if s.closed then s.low * scale ≤ j * unit && j * unit ≤ s.high * scale
    else s.low * scale < j * unit && j * unit < s.high * scale
  let j := s.mid * scale / unit
  let below := s.mid * scale - j * unit
  let above := (j + 1) * unit - s.mid * scale
  match inside j, inside (j + 1) with
  | false, false => none
  | true, false => some j
  | false, true => some (j + 1)
  | true, true =>
    if below < above then some j
    else if above < below then some (j + 1)
    else if j % 2 = 0 then some j
    else some (j + 1)

/-- The exponent of the first decimal digit of the double. -/
def Span.magnitude (s : Span) : Int :=
  if s.den ≤ s.mid then (Nat.toDigits 10 (s.mid / s.den)).length - 1
  else -(((List.range 400).find? fun k => s.den ≤ s.mid * Nat.pow 10 k).getD 0 : Int)

/-- Digits without a zero at the end, and the exponent of the first of them. -/
structure Digits where
  digits : List Char
  exponent : Int
  deriving DecidableEq

/-- The shortest digits of a positive double. -/
def shortest (bits : UInt64) : Digits :=
  let s := Span.ofBits bits
  let hit := (List.range 17).findSome? fun n : Nat =>
    let k := s.magnitude - (n : Int)
    (s.nearest? k).map fun j => (j, k)
  let (j, k) := hit.getD (0, 0)
  let all := Nat.toDigits 10 j
  ⟨(all.reverse.dropWhile (· = '0')).reverse, k + all.length - 1⟩

example : shortest 0x3fb999999999999a = ⟨['1'], -1⟩ := by decide +kernel
example : shortest 1 = ⟨['5'], -324⟩ := by decide +kernel

end SessionPool.Decimal
