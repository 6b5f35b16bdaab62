/-! White space as a property of characters: the ASCII blanks, U+0085, U+00A0 and the spaces and
    separators beyond. It has 25 members. A text is blank when it has no other character. -/

namespace SessionPool.Text

/-- The ranges of the white space characters, both ends included. -/
def blankRanges : List (Nat × Nat) :=
  [(0x9, 0xd), (0x20, 0x20), (0x85, 0x85), (0xa0, 0xa0), (0x1680, 0x1680), (0x2000, 0x200a),
    (0x2028, 0x2029), (0x202f, 0x202f), (0x205f, 0x205f), (0x3000, 0x3000)]

/-- Whether a character is white space. -/
def isBlankChar (c : Char) : Bool := blankRanges.any fun r => r.1 ≤ c.toNat && c.toNat ≤ r.2

/-- Whether a text consists of white space only. -/
def isBlank (s : String) : Bool := s.toList.all isBlankChar

end SessionPool.Text
