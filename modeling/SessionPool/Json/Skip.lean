import SessionPool.Json.Reader

/-! Passing over a value whose content does not matter. The open containers are kept in a list, so
    nesting has no limit; numbers are not rounded, so none is out of range; and an escape by number
    may name half a surrogate pair. -/

namespace SessionPool.Json

/-- A container that is open. -/
inductive Bracket where
  | list
  | object
  deriving DecidableEq

def Bracket.endFault : Bracket → Fault
  | .list => .endInList
  | .object => .endInObject

def Bracket.commaFault : Bracket → Fault
  | .list => .expectedCommaOrBracket
  | .object => .expectedCommaOrBrace

def Bracket.closer : Bracket → Char
  | .list => ']'
  | .object => '\x7d'

/-- Behind the letter of an exponent. -/
def skipExponent (s : List Char) : Except Misread (List Char) :=
  let s := match s with
    | '+' :: r => r
    | '-' :: r => r
    | r => r
  match s with
  | [] => .error (faultAt .invalidNumber [])
  | c :: r => if c.isDigit then .ok (r.dropWhile Char.isDigit) else .error (faultPast .invalidNumber s)

/-- Behind the integer part of a number. -/
def skipFraction (s : List Char) : Except Misread (List Char) :=
  match s with
  | '.' :: r =>
    match r.takeWhile Char.isDigit, r.dropWhile Char.isDigit with
    | [], t => .error (faultPast .invalidNumber t)
    | _ :: _, 'e' :: t => skipExponent t
    | _ :: _, 'E' :: t => skipExponent t
    | _ :: _, t => .ok t
  | 'e' :: r => skipExponent r
  | 'E' :: r => skipExponent r
  | r => .ok r

/-- A number behind its sign. -/
def skipUnsigned (s : List Char) : Except Misread (List Char) :=
  match s with
  | [] => .error (faultAt .invalidNumber [])
  | '0' :: r =>
    match r with
    | c :: _ => if c.isDigit then .error (faultPast .invalidNumber r) else skipFraction r
    | [] => .ok []
  | c :: r => if c.isDigit then skipFraction (r.dropWhile Char.isDigit) else .error (faultPast .invalidNumber s)

/-- A string behind its opening quote. -/
def skipString : Nat → List Char → Except Misread (List Char)
  | 0, s => .error (faultAt .endInString s)
  | fuel + 1, s =>
    match s with
    | [] => .error (faultAt .endInString [])
    | '"' :: r => .ok r
    | '\\' :: [] => .error (faultAt .endInString [])
    | '\\' :: 'u' :: r =>
      match readHex r with
      | .error e => .error e
      | .ok (_, t) => skipString fuel t
    | '\\' :: c :: r =>
      if (simpleEscape? c).isSome then skipString fuel r else .error (faultPast .invalidEscape (c :: r))
    | c :: r => if c.toNat < 32 then .error (faultAt .controlCharacter s) else skipString fuel r

/-- A scalar, or the opening of a container. -/
def skipStart (s : List Char) : Except Misread (Option Bracket × List Char) :=
  let scalar (r : Except Misread (List Char)) := r.map fun t => ((none : Option Bracket), t)
  match skipSpace s with
  | [] => .error (faultPast .endInValue [])
  | '[' :: r => .ok (some .list, r)
  | '\x7b' :: r => .ok (some .object, r)
  | 'n' :: r => scalar ((readWord () ['u', 'l', 'l'] r).map (·.2))
  | 't' :: r => scalar ((readWord () ['r', 'u', 'e'] r).map (·.2))
  | 'f' :: r => scalar ((readWord () ['a', 'l', 's', 'e'] r).map (·.2))
  | '"' :: r => scalar (skipString (r.length + 1) r)
  | '-' :: r => scalar (skipUnsigned r)
  | c :: r => if c.isDigit then scalar (skipUnsigned (c :: r)) else .error (faultPast .expectedValue (c :: r))

/-- What precedes a member of a container: nothing in a list, key and colon in an object. -/
def skipKey (b : Bracket) (s : List Char) : Except Misread (List Char) :=
  match b with
  | .list => .ok s
  | .object =>
    match skipSpace s with
    | [] => .error (faultPast .endInObject [])
    | '"' :: r =>
      match skipString (r.length + 1) r with
      | .error e => .error e
      | .ok t => readColon t
    | t => .error (faultPast .keyNotString t)

/-- The container `b` closes here, or goes on with another member: whether it goes on, and what is
    left then. -/
def skipNext (b : Bracket) (first : Bool) (s : List Char) : Except Misread (Bool × List Char) :=
  match skipSpace s with
  | [] => .error (faultPast b.endFault [])
  | c :: r =>
    if c = ',' && !first then (skipKey b r).map fun t => (true, t)
    else if c = b.closer then .ok (false, r)
    else if first then (skipKey b (c :: r)).map fun t => (true, t)
    else .error (faultPast b.commaFault (c :: r))

/-- Passes over what is left of the open containers; `value` says that a value comes next, and
    `first` that the innermost container was opened just before. -/
def skipFrom : Nat → (value first : Bool) → List Bracket → List Char → Except Misread (List Char)
  | 0, _, _, _, s => .error (faultPast .endInValue s)
  | _ + 1, false, _, [], s => .ok s
  | fuel + 1, false, first, b :: stack, s =>
    match skipNext b first s with
    | .error e => .error e
    | .ok (true, r) => skipFrom fuel true false (b :: stack) r
    | .ok (false, r) => skipFrom fuel false false stack r
  | fuel + 1, true, _, stack, s =>
    match skipStart s with
    | .error e => .error e
    | .ok (some b, r) => skipFrom fuel false true (b :: stack) r
    | .ok (none, r) => skipFrom fuel false false stack r

/-- Passes over one value. -/
def skipValue (s : List Char) : Except Misread (List Char) :=
  skipFrom (2 * s.length + 3) true false [] s

end SessionPool.Json
