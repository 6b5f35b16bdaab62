import SessionPool.Json.Value
import SessionPool.Decimal.Shortest

/-! JSON text of a value. The compact form has no blanks; the pretty form indents by two spaces and
    keeps an empty container on one line. In strings only the quote, the backslash and the control
    characters below U+0020 are escaped. A double is written with the fewest digits that read back,
    positionally when the exponent of its first digit lies between -5 and 15. -/

namespace SessionPool.Json

/-- A hexadecimal digit, in lower case. -/
def hexDigit (n : Nat) : Char := if n < 10 then Char.ofNat (48 + n) else Char.ofNat (87 + n)

/-- One character of a string, as it is written. -/
def escape (c : Char) : List Char :=
  if c = '"' then ['\\', '"']
  else if c = '\\' then ['\\', '\\']
  else if c = '\x08' then ['\\', 'b']
  else if c = '\x0c' then ['\\', 'f']
  else if c = '\n' then ['\\', 'n']
  else if c = '\r' then ['\\', 'r']
  else if c = '\t' then ['\\', 't']
  else if c.toNat < 32 then ['\\', 'u', '0', '0', hexDigit (c.toNat / 16), hexDigit (c.toNat % 16)]
  else [c]

/-- A string in quotes. -/
def quote (s : String) : List Char := '"' :: (s.toList.flatMap escape ++ ['"'])

/-- The exponents of the first digit for which a double is written without an exponent. -/
def positional (e : Int) : Bool := -5 ≤ e && e ≤ 15

/-- Digits laid out with a decimal point, or with an exponent that always has a sign. -/
def layOut (d : Decimal.Digits) : List Char :=
  if positional d.exponent then
    if d.exponent < 0 then
      '0' :: '.' :: (List.replicate (d.exponent.natAbs - 1) '0' ++ d.digits)
    else
      let n := d.exponent.natAbs + 1
      let whole := d.digits.take n
      let fraction := d.digits.drop n
      whole ++ List.replicate (n - whole.length) '0' ++ '.' ::
        (if fraction.isEmpty then ['0'] else fraction)
  else
    let tail := d.digits.drop 1
    d.digits.take 1 ++ (if tail.isEmpty then [] else '.' :: tail) ++
      'e' :: (if d.exponent < 0 then '-' else '+') :: Nat.toDigits 10 d.exponent.natAbs

/-- A number: integers in decimal, doubles by their shortest digits. -/
def number : Number → List Char
  | .int (.ofNat n) => Nat.toDigits 10 n
  | .int (.negSucc n) => '-' :: Nat.toDigits 10 (n + 1)
  | .double bits =>
    let sign := if bits >>> 63 = 1 then ['-'] else []
    let body := if Number.isZero bits then ['0', '.', '0'] else layOut (Decimal.shortest bits)
    sign ++ body

mutual

/-- The compact text of a value. -/
def chars : Json → List Char
  | .null => ['n', 'u', 'l', 'l']
  | .bool true => ['t', 'r', 'u', 'e']
  | .bool false => ['f', 'a', 'l', 's', 'e']
  | .num n => number n
  | .str s => quote s
  | .arr [] => ['[', ']']
  | .arr (v :: l) => '[' :: (v.chars ++ itemChars l)
  | .obj [] => ['\x7b', '\x7d']
  | .obj ((k, v) :: e) => '\x7b' :: (quote k ++ ':' :: (v.chars ++ fieldChars e))

/-- What follows an element of an array. -/
def itemChars : List Json → List Char
  | [] => [']']
  | v :: l => ',' :: (v.chars ++ itemChars l)

/-- What follows an entry of an object. -/
def fieldChars : List (String × Json) → List Char
  | [] => ['\x7d']
  | (k, v) :: e => ',' :: (quote k ++ ':' :: (v.chars ++ fieldChars e))

end

/-- The compact text of a value. -/
def compact (v : Json) : String := String.ofList v.chars

/-- A line break and the indentation of a nesting depth. -/
def newLine (depth : Nat) : List Char := '\n' :: List.replicate (2 * depth) ' '

mutual

/-- The indented text of a value that stands at a nesting depth. -/
def prettyChars (depth : Nat) : Json → List Char
  | .null => ['n', 'u', 'l', 'l']
  | .bool true => ['t', 'r', 'u', 'e']
  | .bool false => ['f', 'a', 'l', 's', 'e']
  | .num n => number n
  | .str s => quote s
  | .arr [] => ['[', ']']
  | .arr (v :: l) =>
    '[' :: (newLine (depth + 1) ++ prettyChars (depth + 1) v ++ prettyItems depth l)
  | .obj [] => ['\x7b', '\x7d']
  | .obj ((k, v) :: e) =>
    '\x7b' :: (newLine (depth + 1) ++ quote k ++ ':' :: ' ' ::
      (prettyChars (depth + 1) v ++ prettyFields depth e))

def prettyItems (depth : Nat) : List Json → List Char
  | [] => newLine depth ++ [']']
  | v :: l => ',' :: (newLine (depth + 1) ++ prettyChars (depth + 1) v ++ prettyItems depth l)

def prettyFields (depth : Nat) : List (String × Json) → List Char
  | [] => newLine depth ++ ['\x7d']
  | (k, v) :: e =>
    ',' :: (newLine (depth + 1) ++ quote k ++ ':' :: ' ' ::
      (prettyChars (depth + 1) v ++ prettyFields depth e))

end

/-- The indented text of a value. -/
def pretty (v : Json) : String := String.ofList (prettyChars 0 v)

end SessionPool.Json
