import SessionPool.Json.Fault
import SessionPool.Decimal.Scaled

/-! The reader of JSON text. A reader takes the characters that are left and gives back a value and
    what is left behind it, or a `Misread`. Containers may be nested `maxDepth` deep, and reading a
    value is a recursion on how many more may be opened: the readers of a list and of an object take
    the reader of what they hold as an argument, and serve lists and maps of any kind. -/

namespace SessionPool.Json

/-- Reads something off the front of a text. -/
abbrev Reader (α : Type) := List Char → Except Misread (α × List Char)

/-- How deep containers may be nested. -/
def maxDepth : Nat := 127

def isSpace (c : Char) : Bool := c = ' ' || c = '\t' || c = '\n' || c = '\r'

/-- What is left behind white space. -/
def skipSpace (s : List Char) : List Char := s.dropWhile isSpace

/-- Reads the rest of a word, letter by letter. -/
def readWord {α : Type} (v : α) : List Char → Reader α
  | [], s => .ok (v, s)
  | _ :: _, [] => .error (faultAt .endInValue [])
  | w :: ws, c :: s => if c = w then readWord v ws s else .error (faultPast .expectedIdent (c :: s))

/-! ### Numbers -/

/-- A number without exponent or fraction: an integer if 64 bits hold it. -/
def wholeNumber (negative : Bool) (digits : List Char) : Option Number :=
  let n := Nat.ofDigitChars 10 digits 0
  if !negative && n < Decimal.wordBound then some (.int n)
  else if negative && 0 < n && n ≤ Decimal.wordBound / 2 then some (.int (-n))
  else ((Decimal.Scaled.ofDigits digits []).toDouble? negative).map .double

/-- The largest exponent that can be written. -/
def maxExponent : Nat := 0x7fffffff

/-- Collects the digits of an exponent; `none` with what is left where it grows too large. -/
def readExponent (e : Nat) : List Char → Option Nat × List Char
  | [] => (some e, [])
  | c :: s =>
    if c.isDigit then
      let next := e * 10 + (c.toNat - '0'.toNat)
      if next ≤ maxExponent then readExponent next s else (none, s)
    else (some e, c :: s)

/-- An exponent added to another, within 32 bits. -/
def addExponent (a b : Int) : Int := max (-(maxExponent : Int) - 1) (min (maxExponent : Int) (a + b))

/-- The exponent behind its letter, given the number before it. -/
def readScientific (negative : Bool) (m : Decimal.Scaled) (s : List Char) :
    Except Misread (Number × List Char) :=
  let (down, s) := match s with
    | '+' :: r => (false, r)
    | '-' :: r => (true, r)
    | r => (false, r)
  match s with
  | [] => .error (faultAt .endInValue [])
  | c :: _ =>
    if !c.isDigit then .error (faultPast .invalidNumber s)
    else
      match readExponent 0 s with
      | (some e, r) =>
        let exponent := addExponent m.exponent (if down then -(e : Int) else e)
        match Decimal.Scaled.toDouble? negative ⟨m.significand, exponent⟩ with
        | some bits => .ok (.double bits, r)
        | none => .error (faultAt .numberOutOfRange r)
      | (none, r) =>
        if m.significand ≠ 0 && !down then .error (faultAt .numberOutOfRange r)
        else .ok (.double (if negative then 0x8000000000000000 else 0), r.dropWhile Char.isDigit)

/-- What may follow the integer part of a number. -/
def readFraction (negative : Bool) (whole : List Char) (s : List Char) :
    Except Misread (Number × List Char) :=
  let close (m : Option Number) (s : List Char) : Except Misread (Number × List Char) :=
    match m with
    | some n => .ok (n, s)
    | none => .error (faultAt .numberOutOfRange s)
  match s with
  | '.' :: r =>
    let fraction := r.takeWhile Char.isDigit
    let rest := r.dropWhile Char.isDigit
    let m := Decimal.Scaled.ofDigits whole fraction
    if fraction.isEmpty then
      .error (faultPast (if rest.isEmpty then .endInValue else .invalidNumber) rest)
    else
      match rest with
      | 'e' :: t => readScientific negative m t
      | 'E' :: t => readScientific negative m t
      | t => close ((m.toDouble? negative).map .double) t
  | 'e' :: r => readScientific negative (Decimal.Scaled.ofDigits whole []) r
  | 'E' :: r => readScientific negative (Decimal.Scaled.ofDigits whole []) r
  | r => close (wholeNumber negative whole) r

/-- A number behind its sign. -/
def readUnsigned (negative : Bool) (s : List Char) : Except Misread (Number × List Char) :=
  match s with
  | [] => .error (faultAt .endInValue [])
  | '0' :: r =>
    match r with
    | c :: _ =>
      if c.isDigit then .error (faultPast .invalidNumber r) else readFraction negative ['0'] r
    | [] => readFraction negative ['0'] []
  | c :: _ =>
    if c.isDigit then
      readFraction negative (s.takeWhile Char.isDigit) (s.dropWhile Char.isDigit)
    else .error (faultPast .invalidNumber s)

/-! ### Strings -/

/-- The value of a hexadecimal digit. -/
def hexValue? (c : Char) : Option Nat :=
  if c.isDigit then some (c.toNat - '0'.toNat)
  else if 'a' ≤ c ∧ c ≤ 'f' then some (c.toNat - 'a'.toNat + 10)
  else if 'A' ≤ c ∧ c ≤ 'F' then some (c.toNat - 'A'.toNat + 10)
  else none

/-- Four hexadecimal digits; four bytes are consumed whether or not they are digits. -/
def readHex (s : List Char) : Except Misread (Nat × List Char) :=
  if bytes s < 4 then .error (faultAt .endInString [])
  else
    let invalid : Except Misread (Nat × List Char) := .error ⟨.invalidEscape, some (bytes s - 4)⟩
    match s with
    | a :: b :: c :: d :: r =>
      match hexValue? a, hexValue? b, hexValue? c, hexValue? d with
      | some a, some b, some c, some d => .ok (((a * 16 + b) * 16 + c) * 16 + d, r)
      | _, _, _, _ => invalid
    | _ => invalid

/-- Consumes one expected byte of a surrogate pair. -/
def expectByte (w : Char) (s : List Char) : Except Misread (List Char) :=
  match s with
  | [] => .error (faultAt .endInString [])
  | c :: r => if c = w then .ok r else .error (faultPast .brokenSurrogate s)

/-- The character of an escape by number, which may take two of them. -/
def readUnicode (s : List Char) : Except Misread (Char × List Char) := do
  let (n, s) ← readHex s
  if 0xdc00 ≤ n && n ≤ 0xdfff then throw (faultAt .loneSurrogate s)
  else if 0xd800 ≤ n && n ≤ 0xdbff then
    let s ← expectByte '\\' s
    let s ← expectByte 'u' s
    let (m, s) ← readHex s
    if 0xdc00 ≤ m && m ≤ 0xdfff then
      pure (Char.ofNat (0x10000 + (n - 0xd800) * 0x400 + (m - 0xdc00)), s)
    else throw (faultAt .loneSurrogate s)
  else pure (Char.ofNat n, s)

/-- The character that an escape letter stands for. -/
def simpleEscape? (c : Char) : Option Char :=
  match c with
  | '"' => some '"'
  | '\\' => some '\\'
  | '/' => some '/'
  | 'b' => some '\x08'
  | 'f' => some '\x0c'
  | 'n' => some '\n'
  | 'r' => some '\r'
  | 't' => some '\t'
  | _ => none

/-- One character of a string; `none` is the closing quote. -/
def readChar (s : List Char) : Except Misread (Option Char × List Char) :=
  match s with
  | [] => .error (faultAt .endInString [])
  | '"' :: r => .ok (none, r)
  | '\\' :: [] => .error (faultAt .endInString [])
  | '\\' :: 'u' :: r => (readUnicode r).map fun p => (some p.1, p.2)
  | '\\' :: c :: r =>
    match simpleEscape? c with
    | some d => .ok (some d, r)
    | none => .error (faultPast .invalidEscape (c :: r))
  | c :: r => if c.toNat < 32 then .error (faultPast .controlCharacter s) else .ok (some c, r)

/-- Characters up to the closing quote; each takes at least one of the `fuel`. -/
def readChars : Nat → List Char → Except Misread (List Char × List Char)
  | 0, s => .error (faultAt .endInString s)
  | fuel + 1, s =>
    match readChar s with
    | .error e => .error e
    | .ok (none, r) => .ok ([], r)
    | .ok (some c, r) => (readChars fuel r).map fun p => (c :: p.1, p.2)

/-- A string behind its opening quote. -/
def readString : Reader String := fun s =>
  (readChars (s.length + 1) s).map fun p => (String.ofList p.1, p.2)

/-! ### Containers -/

/-- Goes to the next element of a list: what is left there, or `none` and what is left behind the
    closing bracket. -/
def nextItem (first : Bool) (s : List Char) : Except Misread (Bool × List Char) :=
  match skipSpace s with
  | [] => .error (faultPast .endInList [])
  | ']' :: r => .ok (false, r)
  | ',' :: r =>
    if first then .ok (true, ',' :: r)
    else
      match skipSpace r with
      | [] => .error (faultPast .endInValue [])
      | ']' :: t => .error (faultPast .trailingComma (']' :: t))
      | t => .ok (true, t)
  | t => if first then .ok (true, t) else .error (faultPast .expectedCommaOrBracket t)

/-- Goes to the next key of an object and reads it, or behind the closing brace. -/
def nextKey (first : Bool) (s : List Char) : Except Misread (Option String × List Char) :=
  let key (r : List Char) := (readString r).map fun p => (some p.1, p.2)
  match skipSpace s with
  | [] => .error (faultPast .endInObject [])
  | '\x7d' :: r => .ok (none, r)
  | '"' :: r =>
    if first then key r else .error (faultPast .expectedCommaOrBrace ('"' :: r))
  | c :: r =>
    if first then .error (faultPast .keyNotString (c :: r))
    else if c = ',' then
      match skipSpace r with
      | [] => .error (faultPast .endInValue [])
      | '"' :: t => key t
      | '\x7d' :: t => .error (faultPast .trailingComma ('\x7d' :: t))
      | t => .error (faultPast .keyNotString t)
    else .error (faultPast .expectedCommaOrBrace (c :: r))

/-- The colon behind a key. -/
def readColon (s : List Char) : Except Misread (List Char) :=
  match skipSpace s with
  | ':' :: r => .ok r
  | [] => .error (faultPast .endInObject [])
  | r => .error (faultPast .expectedColon r)

/-- The elements of a list, from behind the opening bracket or behind an element. -/
def readItems {α : Type} (item : Reader α) : Nat → Bool → Reader (List α)
  | 0, _, s => .error (faultPast .endInList s)
  | fuel + 1, first, s =>
    match nextItem first s with
    | .error e => .error e
    | .ok (false, r) => .ok ([], r)
    | .ok (true, r) =>
      match item r with
      | .error e => .error e
      | .ok (v, t) => (readItems item fuel false t).map fun p => (v :: p.1, p.2)

/-- The entries of an object in their order, from behind the opening brace or behind an entry. -/
def readEntries {α : Type} (item : Reader α) : Nat → Bool → Reader (List (String × α))
  | 0, _, s => .error (faultPast .endInObject s)
  | fuel + 1, first, s =>
    match nextKey first s with
    | .error e => .error e
    | .ok (none, r) => .ok ([], r)
    | .ok (some k, r) =>
      match readColon r with
      | .error e => .error e
      | .ok r =>
        match item r with
        | .error e => .error e
        | .ok (v, t) => (readEntries item fuel false t).map fun p => ((k, v) :: p.1, p.2)

/-- A list behind its opening bracket. -/
def readList {α : Type} (item : Reader α) : Reader (List α) := fun s =>
  readItems item (s.length + 1) true s

/-- An object behind its opening brace; of two equal keys the last counts. -/
def readTable {α : Type} (item : Reader α) : Reader (Table α) := fun s =>
  (readEntries item (s.length + 1) true s).map fun p => (Table.ofList p.1, p.2)

/-- A value that is neither a list nor an object, if it starts here. -/
def readScalar (s : List Char) : Except Misread (Json × List Char) :=
  match s with
  | [] => .error (faultPast .endInValue [])
  | 'n' :: r => readWord .null ['u', 'l', 'l'] r
  | 't' :: r => readWord (.bool true) ['r', 'u', 'e'] r
  | 'f' :: r => readWord (.bool false) ['a', 'l', 's', 'e'] r
  | '"' :: r => (readString r).map fun p => (.str p.1, p.2)
  | '-' :: r => (readUnsigned true r).map fun p => (.num p.1, p.2)
  | c :: r =>
    if c.isDigit then (readUnsigned false (c :: r)).map fun p => (.num p.1, p.2)
    else .error (faultPast .expectedValue (c :: r))

/-- A value of any kind, in which `depth` containers may still be opened. -/
def readValue (depth : Nat) : Reader Json := fun s =>
  match skipSpace s with
  | '[' :: r =>
    match depth with
    | 0 => .error (faultPast .tooDeep ('[' :: r))
    | d + 1 => (readList (readValue d) r).map fun p => (.arr p.1, p.2)
  | '\x7b' :: r =>
    match depth with
    | 0 => .error (faultPast .tooDeep ('\x7b' :: r))
    | d + 1 => (readTable (readValue d) r).map fun p => (.obj p.1, p.2)
  | t => readScalar t

/-- Reads a whole text: nothing but white space may follow. -/
def readAll {α : Type} (r : Reader α) (text : String) : Except Misread α :=
  match r text.toList with
  | .error e => .error e
  | .ok (v, s) =>
    match skipSpace s with
    | [] => .ok v
    | t => .error (faultPast .trailingCharacters t)

/-- The value that a text holds. -/
def parse (text : String) : Except Misread Json := readAll (readValue maxDepth) text

end SessionPool.Json
