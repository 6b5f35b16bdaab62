import SessionPool.Catalog

/-! Lists of operations that are given as values and not as text. What is wrong with one is told without
    a place, since a value has no lines. -/

namespace SessionPool.Rehearsal

/-- What a value is when something else was wanted. -/
def found : Json → Json.Found
  | .null => .null
  | .bool b => .bool b
  | .num n => .number n
  | .str s => .text s
  | .arr _ => .sequence
  | .obj _ => .map

/-- The text of a value that must be one. -/
def textIn : Json → Except Json.Fault String
  | .str s => .ok s
  | v => .error (.invalidType (found v) "a string")

/-- An operation written with names for its fields. -/
def operationOfEntries (entries : Fields) : Except Json.Fault Operation := do
  let description ← ((Table.get? "description" entries).map textIn).getD (.ok "")
  let input := (Table.get? "input_schema" entries).getD Operation.anyInput
  match Table.get? "name" entries with
  | none => .error (.missingField "name")
  | some v => (textIn v).map fun name => ⟨name, description, input⟩

/-- An operation written as the list of its fields. -/
def operationOfItems : List Json → Except Json.Fault Operation
  | [] => .error (.invalidLength 0 Operation.layout.sized)
  | [n] => do
    let name ← textIn n
    pure ⟨name, "", Operation.anyInput⟩
  | [n, d] => do
    let name ← textIn n
    let description ← textIn d
    pure ⟨name, description, Operation.anyInput⟩
  | n :: d :: input :: more => do
    let name ← textIn n
    let description ← textIn d
    if more.isEmpty then pure ⟨name, description, input⟩
    else .error (.invalidLength (more.length + 3) "fewer elements in array")

def operationOf : Json → Except Json.Fault Operation
  | .obj entries => operationOfEntries entries
  | .arr items => operationOfItems items
  | v => .error (.invalidType (found v) Operation.layout.title)

/-- The operations in a list, up to the first that is faulty. -/
def operationsOf : Json → Except Json.Fault (List Operation)
  | .arr items => items.mapM operationOf
  | v => .error (.invalidType (found v) "a sequence")

end SessionPool.Rehearsal
