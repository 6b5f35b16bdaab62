import SessionPool.Table

/-! JSON values. An object is a table, so it lists its keys in order and holds each once. A number is
    an integer of at most 64 bits or a double; a double is held by its bits, which keeps equality of
    values decidable. `Json.same` is equality as the format sees it: an integer never equals a
    double, and the two zeros among the doubles are equal. -/

namespace SessionPool

/-- A JSON number. -/
inductive Number where
  | int (i : Int)
  | double (bits : UInt64)
  deriving DecidableEq, Inhabited

/-- A JSON value. -/
inductive Json where
  | null
  | bool (b : Bool)
  | num (n : Number)
  | str (s : String)
  | arr (items : List Json)
  | obj (entries : List (String × Json))
  deriving Inhabited

/-- A JSON object: the argument of every remote operation. -/
abbrev Fields := Table Json

namespace Number

/-- The bits of a double, without its sign, are zero exactly for the two zeros. -/
def isZero (bits : UInt64) : Bool := bits <<< 1 = 0

/-- Equality of numbers: of one kind, and equal as such. -/
def same : Number → Number → Bool
  | .int i, .int j => i = j
  | .double a, .double b => a = b || (isZero a && isZero b)
  | _, _ => false

theorem same_refl (n : Number) : n.same n = true := by cases n <;> simp [same]

end Number

namespace Json

/-- The integer `i` as a value. -/
def int (i : Int) : Json := .num (.int i)

mutual

/-- Equality of values, member by member. -/
def same : Json → Json → Bool
  | .null, .null => true
  | .bool a, .bool b => a = b
  | .num m, .num n => m.same n
  | .str s, .str t => s = t
  | .arr l, .arr m => sameItems l m
  | .obj e, .obj f => sameFields e f
  | _, _ => false

def sameItems : List Json → List Json → Bool
  | [], [] => true
  | a :: l, b :: m => a.same b && sameItems l m
  | _, _ => false

def sameFields : List (String × Json) → List (String × Json) → Bool
  | [], [] => true
  | (j, a) :: e, (k, b) :: f => j = k && a.same b && sameFields e f
  | _, _ => false

end

/-- The value under a key, if this is an object that has it. -/
def get? (k : String) : Json → Option Json
  | .obj e => Table.get? k e
  | _ => none

/-- The text, if this is a string. -/
def text? : Json → Option String
  | .str s => some s
  | _ => none

/-- The members, if this is an array. -/
def items? : Json → Option (List Json)
  | .arr l => some l
  | _ => none

theorem text?_eq_some_iff {v : Json} {s : String} : v.text? = some s ↔ v = .str s := by
  cases v <;> simp [text?]

theorem items?_eq_some_iff {v : Json} {l : List Json} : v.items? = some l ↔ v = .arr l := by
  cases v <;> simp [items?]

/-- The entries, if this is an object. -/
def fields? : Json → Option Fields
  | .obj e => some e
  | _ => none

end Json
end SessionPool
