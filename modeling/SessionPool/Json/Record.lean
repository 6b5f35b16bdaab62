import SessionPool.Json.Skip

/-! Readers of typed data. A record is written as an object, whose unknown entries are passed over, or
    as a list of its fields in their order. `Layout` says which fields a record has; its draft holds
    what has been read so far. Every reader takes the number of containers that may still be opened. -/

namespace SessionPool.Json

/-- Reads data of one type, with room for `depth` more containers. -/
abbrev TypedReader (α : Type) := Nat → Reader α

/-- The misread of text `s`, where something else was wanted. A scalar is read to its end first. -/
def wrongType (wanted : String) (s : List Char) : Misread :=
  match s with
  | '[' :: _ => faultAt (.invalidType .sequence wanted) s
  | '\x7b' :: _ => faultAt (.invalidType .map wanted) s
  | _ =>
    match readScalar s with
    | .error e => e
    | .ok (.bool b, r) => faultAt (.invalidType (.bool b) wanted) r
    | .ok (.num n, r) => faultAt (.invalidType (.number n) wanted) r
    | .ok (.str t, r) => faultAt (.invalidType (.text t) wanted) r
    | .ok (_, r) => faultAt (.invalidType .null wanted) r

/-- Goes to a value that opens with a given character, or says what was wanted. -/
def opening (c : Char) (wanted : String) (s : List Char) : Except Misread (List Char) :=
  match skipSpace s with
  | [] => .error (faultPast .endInValue [])
  | d :: r => if d = c then .ok r else .error (wrongType wanted (d :: r))

/-- Room for one container fewer, unless there is none; `s` is left before its opening. -/
def deeper (depth : Nat) (s : List Char) : Except Misread Nat :=
  match depth with
  | 0 => .error (faultPast .tooDeep (skipSpace s))
  | d + 1 => .ok d

/-- A string, wanted as such or as something that is written as a string. -/
def textOf (wanted : String) : TypedReader String := fun _ s => do
  let r ← opening '"' wanted s
  readString r

def text : TypedReader String := textOf "a string"

/-- Anything, where `null` stands for nothing. -/
def optional {α : Type} (item : TypedReader α) : TypedReader (Option α) := fun depth s =>
  match skipSpace s with
  | 'n' :: r => readWord none ['u', 'l', 'l'] r
  | t => (item depth t).map fun p => (some p.1, p.2)

def listOf {α : Type} (item : TypedReader α) : TypedReader (List α) := fun depth s => do
  let r ← opening '[' "a sequence" s
  let d ← deeper depth s
  readList (item d) r

def tableOf {α : Type} (item : TypedReader α) : TypedReader (Table α) := fun depth s => do
  let r ← opening '\x7b' "a map" s
  let d ← deeper depth s
  readTable (item d) r

/-- A field of a record with drafts of type `σ`. -/
structure Field (σ : Type) where
  name : String
  required : Bool
  filled : σ → Bool
  read : TypedReader (σ → σ)

/-- A field kept in an optional part of the draft. -/
def Field.of {σ α : Type} (name : String) (required : Bool) (get : σ → Option α)
    (set : α → σ → σ) (item : TypedReader α) : Field σ where
  name
  required
  filled d := (get d).isSome
  read depth s := (item depth s).map fun p => (set p.1, p.2)

/-- How a record is written: its title in messages, its fields, and what a draft makes. -/
structure Layout (σ α : Type) where
  title : String
  blank : σ
  fields : List (Field σ)
  build : σ → α

namespace Layout
variable {σ α : Type}

/-- The title with the number of fields. -/
def sized (l : Layout σ α) : String :=
  l.title ++ " with " ++ String.ofList (Nat.toDigits 10 l.fields.length) ++
    (if l.fields.length = 1 then " element" else " elements")

/-- What is left behind white space and a closing brace, if one follows. A field that is given twice is
    reported there, since a record is left before its fault is placed. -/
def pastBrace (s : List Char) : List Char :=
  match skipSpace s with
  | '\x7d' :: r => r
  | r => r

/-- Reads entries of an object into a draft, up to the closing brace. -/
def readMembers (fields : List (Field σ)) (depth : Nat) : Nat → Bool → σ → Reader σ
  | 0, _, _, s => .error (faultPast .endInObject s)
  | fuel + 1, first, draft, s =>
    match nextKey first s with
    | .error e => .error e
    | .ok (none, r) => .ok (draft, r)
    | .ok (some k, r) =>
      match fields.find? (·.name = k) with
      | none =>
        match readColon r with
        | .error e => .error e
        | .ok r =>
          match skipValue r with
          | .error e => .error e
          | .ok t => readMembers fields depth fuel false draft t
      | some f =>
        if f.filled draft then .error (faultAt (.duplicateField k) (pastBrace r))
        else
          match readColon r with
          | .error e => .error e
          | .ok r =>
            match f.read depth r with
            | .error e => .error e
            | .ok (g, t) => readMembers fields depth fuel false (g draft) t

/-- Nothing but the closing bracket may follow the last field of a list. -/
def closeList (s : List Char) : Except Misread (List Char) :=
  match skipSpace s with
  | [] => .error (faultPast .endInList [])
  | ']' :: r => .ok r
  | ',' :: r =>
    match skipSpace r with
    | ']' :: t => .error (faultPast .trailingComma (']' :: t))
    | t => .error (faultPast .trailingCharacters t)
  | t => .error (faultPast .trailingCharacters t)

/-- Reads fields by their place in a list; `place` of them are read already. -/
def readPlaces (l : Layout σ α) (depth place : Nat) (draft : σ) : List (Field σ) → Reader σ
  | [], s => (closeList s).map fun r => (draft, r)
  | f :: fs, s =>
    match nextItem (place = 0) s with
    | .error e => .error e
    | .ok (false, r) =>
      match (f :: fs).findIdx? (·.required) with
      | some i => .error (faultAt (.invalidLength (place + i) l.sized) r)
      | none => .ok (draft, r)
    | .ok (true, r) =>
      match f.read depth r with
      | .error e => .error e
      | .ok (g, t) => readPlaces l depth (place + 1) (g draft) fs t

/-- The reader of a record. -/
def read (l : Layout σ α) : TypedReader α := fun depth s =>
  match skipSpace s with
  | [] => .error (faultPast .endInValue [])
  | '[' :: r => do
    let d ← deeper depth s
    let (draft, t) ← readPlaces l d 0 l.blank l.fields r
    pure (l.build draft, t)
  | '\x7b' :: r => do
    let d ← deeper depth s
    let (draft, t) ← readMembers l.fields d (r.length + 1) true l.blank r
    match l.fields.find? fun f => f.required && !f.filled draft with
    | some f => throw (faultAt (.missingField f.name) t)
    | none => pure (l.build draft, t)
  | t => .error (wrongType l.title t)

end Layout
end SessionPool.Json
