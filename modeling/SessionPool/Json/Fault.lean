import SessionPool.Json.Printer
import SessionPool.Text.Quoted

/-! Why a text is not the JSON that was wanted, and where. A `Misread` keeps its place as the number of
    bytes that were left of the text, so a reader never counts how far it has come. The message
    names the place by line and column; columns count bytes, and a place may lie inside a character. -/

namespace SessionPool.Json

/-- What stands where something else was wanted. -/
inductive Found where
  | null
  | bool (b : Bool)
  | number (n : Number)
  | text (s : String)
  | sequence
  | map
  | unitVariant
  deriving DecidableEq

/-- What is wrong with a text. -/
inductive Fault where
  | endInValue
  | endInString
  | endInList
  | endInObject
  | expectedValue
  | expectedIdent
  | expectedColon
  | expectedCommaOrBracket
  | expectedCommaOrBrace
  | invalidNumber
  | numberOutOfRange
  | invalidEscape
  | loneSurrogate
  | brokenSurrogate
  | controlCharacter
  | keyNotString
  | trailingComma
  | trailingCharacters
  | tooDeep
  | invalidType (found : Found) (wanted : String)
  | missingField (name : String)
  | duplicateField (name : String)
  | invalidLength (length : Nat) (wanted : String)
  | unknownVariant (name : String) (wanted : String)
  deriving DecidableEq

/-- A fault and the number of bytes left behind its place; `none` if it has no place. -/
structure Misread where
  fault : Fault
  left : Option Nat
  deriving DecidableEq

def Found.describe : Found → String
  | .null => "null"
  | .bool true => "boolean `true`"
  | .bool false => "boolean `false`"
  | .number (.int i) => "integer `" ++ String.ofList (Json.number (.int i)) ++ "`"
  | .number (.double b) => "floating point `" ++ String.ofList (Json.number (.double b)) ++ "`"
  | .text s => "string " ++ Text.quoted s
  | .sequence => "sequence"
  | .map => "map"
  | .unitVariant => "unit variant"

def Fault.describe : Fault → String
  | .endInValue => "EOF while parsing a value"
  | .endInString => "EOF while parsing a string"
  | .endInList => "EOF while parsing a list"
  | .endInObject => "EOF while parsing an object"
  | .expectedValue => "expected value"
  | .expectedIdent => "expected ident"
  | .expectedColon => "expected `:`"
  | .expectedCommaOrBracket => "expected `,` or `]`"
  | .expectedCommaOrBrace => "expected `,` or `\x7d`"
  | .invalidNumber => "invalid number"
  | .numberOutOfRange => "number out of range"
  | .invalidEscape => "invalid escape"
  | .loneSurrogate => "lone leading surrogate in hex escape"
  | .brokenSurrogate => "unexpected end of hex escape"
  | .controlCharacter => "control character (\\u0000-\\u001F) found while parsing a string"
  | .keyNotString => "key must be a string"
  | .trailingComma => "trailing comma"
  | .trailingCharacters => "trailing characters"
  | .tooDeep => "recursion limit exceeded"
  | .invalidType found wanted => "invalid type: " ++ found.describe ++ ", expected " ++ wanted
  | .missingField name => "missing field `" ++ name ++ "`"
  | .duplicateField name => "duplicate field `" ++ name ++ "`"
  | .invalidLength n wanted =>
    "invalid length " ++ String.ofList (Nat.toDigits 10 n) ++ ", expected " ++ wanted
  | .unknownVariant name wanted => "unknown variant `" ++ name ++ "`, expected " ++ wanted

/-- The number of bytes that characters take when encoded. -/
def bytes (s : List Char) : Nat := s.foldl (fun n c => n + c.utf8Size) 0

/-- Line and column reached after `n` more bytes of `s`, from a line and a column. -/
def locate (n line column : Nat) : List Char → Nat × Nat
  | [] => (line, column)
  | c :: s =>
    if n = 0 then (line, column)
    else if c = '\n' then locate (n - 1) (line + 1) 0 s
    else locate (n - c.utf8Size) line (column + min n c.utf8Size) s

/-- The message of a misread of `text`. -/
def Misread.message (m : Misread) (text : String) : String :=
  match m.left with
  | none => m.fault.describe
  | some left =>
    let s := text.toList
    let (line, column) := locate (bytes s - left) 1 0 s
    m.fault.describe ++ " at line " ++ String.ofList (Nat.toDigits 10 line) ++ " column " ++
      String.ofList (Nat.toDigits 10 column)

/-- The fault lies where reading stopped, with `s` left. -/
def faultAt (f : Fault) (s : List Char) : Misread := ⟨f, some (bytes s)⟩

/-- The fault lies behind the next byte of what is left, or at the end if nothing is. -/
def faultPast (f : Fault) (s : List Char) : Misread := ⟨f, some (bytes s - 1)⟩

end SessionPool.Json
