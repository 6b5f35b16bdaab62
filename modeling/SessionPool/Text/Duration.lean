/-! Durations in messages: in the largest of the units s, ms, µs and ns that makes the integer part
    positive, with all decimals that are not zero. -/

namespace SessionPool.Text

/-- A microsecond, in nanoseconds. -/
def microsecond : Nat := 1000

/-- A millisecond, in nanoseconds. -/
def millisecond : Nat := 1000000

/-- A second, in nanoseconds. -/
def second : Nat := 1000000000

/-- A whole number and a fraction `part / 10 ^ places`, without zeros at the end. -/
def decimal (whole part places : Nat) : List Char :=
  let digits := Nat.toDigits 10 part
  let fraction := (List.replicate (places - digits.length) '0' ++ digits).reverse.dropWhile (· = '0')
  Nat.toDigits 10 whole ++ (if fraction.isEmpty then [] else '.' :: fraction.reverse)

/-- A duration in nanoseconds, with its unit. -/
def duration (nanos : Nat) : String := String.ofList <|
  if second ≤ nanos then decimal (nanos / second) (nanos % second) 9 ++ ['s']
  else if millisecond ≤ nanos then
    decimal (nanos / millisecond) (nanos % millisecond) 6 ++ ['m', 's']
  else if microsecond ≤ nanos then
    decimal (nanos / microsecond) (nanos % microsecond) 3 ++ ['µ', 's']
  else decimal nanos 0 0 ++ ['n', 's']

example : duration 1500000000 = "1.5s" := by decide
example : duration 1000001 = "1.000001ms" := by decide

end SessionPool.Text
